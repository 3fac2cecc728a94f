/-
  EntityQuery.Proofs.SingleResults — what is left behind when the one result of a query
  is asked for and there is none to give (`single_failure`).

  The results are counted once the query has run, so a query that answers too many has
  done its work. Only an update can answer more than one entity and change any
  (`Store.execute_many`); everything else that fails leaves the store as it was.
-/

import EntityQuery.Proofs.Sessions
import EntityQuery.Proofs.Updates

namespace EntityQuery

namespace Statement

variable {σ : Type} {s : Statement} {m : Manager σ}

theorem single?_eq_error {es : List Entity} {e : QueryError} :
    single? es = .error e ↔ 2 ≤ es.length ∧ e = .nonUniqueResult es.length := by
  match es with
  | [] => simp [single?]
  | [_] => simp [single?]
  | _ :: _ :: _ => simp [single?, eq_comm]

/-- Either the query fails, or what it answers is too much. -/
theorem single_eq_error {state after : σ} {e : QueryError} : s.single m state = (.error e, after) ↔
    s.list m state = (.error e, after) ∨
      ∃ rows, s.list m state = (.ok rows, after) ∧ 2 ≤ rows.length ∧ e = .nonUniqueResult rows.length := by
  rw [single]
  cases hl : s.list m state with
  | mk answer state' =>
    cases answer with
    | error e' => simp [Except.bind]
    | ok rows =>
      simp only [Except.bind, Prod.mk.injEq, single?_eq_error, reduceCtorEq, false_and, false_or, Except.ok.injEq]
      constructor
      · rintro ⟨hrows, rfl⟩
        exact ⟨rows, ⟨rfl, rfl⟩, hrows⟩
      · rintro ⟨rows', ⟨rfl, rfl⟩, hrows⟩
        exact ⟨hrows, rfl⟩

end Statement

/-- A query other than an update that answers more than one entity changes nothing. -/
theorem Store.execute_many {q : Query Value} {store after : Store} {rows : List Entity}
    (h : manager.execute q store = (.ok rows, after)) (hmany : 2 ≤ rows.length) (hq : q.operation ≠ .update) :
    after = store := by
  cases q with
  | get keys => exact (Prod.mk.inj h).2.symm
  | delete keys =>
    obtain rfl := Manager.execute_delete rfl h
    cases hmany
  | select q => exact (Prod.mk.inj h).2.symm
  | update q => exact absurd rfl hq
  | insert q =>
    obtain rfl : [(store.insert q).1] = rows := Except.ok.inj (Prod.mk.inj h).1
    exact absurd hmany (by simp)

/-- When asking a statement for its one result fails, whatever it is, whatever is bound and
    whatever the error, the store is as it was, unless an update answered more than one
    entity. Then the error says how many it changed, and the update stands as it would
    have if all its results had been asked for: these entities are changed, and all else is
    as it was. -/
theorem single_failure {s : Statement} {store after : Store} {e : QueryError}
    (h : s.single Store.manager store = (.error e, after)) :
    after = store ∨
    ∃ q rows, s.query.operation = .update ∧ s.resolve = .ok (.update q) ∧
      2 ≤ rows.length ∧ e = .nonUniqueResult rows.length ∧
      s.list Store.manager store = (.ok rows, after) ∧
      rows = ((store.entities q.entity).filter (Condition.admits q.condition)).map (Store.assign q.set) ∧
      after.entities q.entity =
        (store.entities q.entity).map (fun e => if Condition.admits q.condition e then Store.assign q.set e else e) ∧
      (∀ name, name ≠ q.entity → after.collection? name = store.collection? name) ∧
      after.names = store.names ∧ after.bucket = store.bucket := by
  rcases Statement.single_eq_error.mp h with hlist | ⟨rows, hlist, hmany, he⟩
  · exact .inl (atomic_of_resolved Store.execute_atomic store e after hlist)
  · cases hr : s.resolve with
    | error e' => simp [Statement.list, hr] at hlist
    | ok r =>
      have hrun : Store.manager.execute r store = (.ok rows, after) := by rw [← hlist, Statement.list, hr]
      by_cases hop : r.operation = .update
      · cases r with
        | update q =>
          obtain ⟨-, hrows, hafter⟩ := Store.update_eq_ok.mp (Store.execute_update_eq_ok.mp hrun)
          refine .inr ⟨q, rows, (Statement.resolve_operation hr).symm.trans hop, rfl, hmany, he, hlist, hrows, ?_, ?_, ?_, ?_⟩
          · rw [hafter]
            exact Store.entities_revised store q
          · intro name hname
            rw [hafter, Store.collection?_revised, if_neg hname]
          · rw [hafter]
            exact Store.names_setCollection q.entity _ _
          · rw [hafter]
        | _ => cases hop
      · exact .inl (Store.execute_many hrun hmany hop)

def everyoneText : String := "update Person set age = 1"

def everyonePhrase : UpdatePhrase := ⟨"Person", ⟨⟨⟨"age", []⟩, .literal (.integer 1)⟩, []⟩, none⟩

theorem prepare_everyone : (Dialect.ofFamily .document).prepare everyoneText .identity =
    .ok (.ofQuery (.update everyonePhrase.query) .identity Converter.standard) := by
  have hwritten : (QueryPhrase.update everyonePhrase).WrittenAs everyoneText :=
    QueryPhrase.writtenAs_of_tokens (by decide +kernel)
  exact Dialect.prepare_eq_ok.mpr ⟨_, Dialect.read_of_writtenAs hwritten rfl, rfl⟩

/-- A store of two people of these ages. -/
def aged (ada bob : Int64) : Store := ⟨[], [("Person", [person "Ada" (.integer ada), person "Bob" (.integer bob)])]⟩

theorem aged_inj {ada bob ada' bob' : Int64} : aged ada bob = aged ada' bob' ↔ ada = ada' ∧ bob = bob' := by
  simp [aged, person]

theorem single_everyone {s : Statement} (h : (Dialect.ofFamily .document).prepare everyoneText .identity = .ok s) :
    s.single Store.manager (aged 36 20) = (.error (.nonUniqueResult 2), aged 1 1) := by
  rw [prepare_everyone] at h
  rw [← Except.ok.inj h]
  rfl

/-- Both are one year old now, and the answer is an error. -/
theorem single_failure_keeps_update :
    ∃ s, (Dialect.ofFamily .document).prepare everyoneText .identity = .ok s ∧
      ∃ e after, s.single Store.manager (aged 36 20) = (.error e, after) ∧ after ≠ aged 36 20 := by
  refine ⟨_, prepare_everyone, _, _, single_everyone prepare_everyone, ?_⟩
  rw [ne_eq, aged_inj]
  decide

theorem single_failure_everyone :
    ∃ s, (Dialect.ofFamily .document).prepare everyoneText .identity = .ok s ∧
      s.single Store.manager (aged 36 20) = (.error (.nonUniqueResult 2), aged 1 1) ∧
      ∃ rows, s.list Store.manager (aged 36 20) = (.ok rows, aged 1 1) ∧ rows.length = 2 := by
  refine ⟨_, prepare_everyone, single_everyone prepare_everyone, ?_⟩
  rcases single_failure (single_everyone prepare_everyone) with hsame | ⟨q, rows, -, -, -, he, hlist, -⟩
  · rw [aged_inj] at hsame
    exact absurd hsame.1 (by decide)
  · exact ⟨rows, hlist, (QueryError.nonUniqueResult.inj he).symm⟩

end EntityQuery
