/-
  EntityQuery.Proofs.Atomicity — a query that fails changes nothing.

  What fails before it reaches a manager cannot change its state. The store fails on its
  own account where a pattern does not fit, and patterns are compiled before any
  entity is touched (`Store.execute_atomic`). A manager that runs at once calls back
  after the operation, if it succeeds, so the caller of a failed one is left alone too
  (`Action.submit_atomic`).
-/

import EntityQuery.Proofs.Execution
import EntityQuery.Proofs.Selection

namespace EntityQuery

variable {σ κ α : Type}

/-! ## Actions -/

/-- Whatever fails leaves the state as it was. -/
def Atomic (act : Action σ α) : Prop := ∀ s e after, act s = (.error e, after) → after = s

theorem Atomic.eq {act : Action σ α} (h : Atomic act) {s : σ} {e : QueryError} (he : (act s).1 = .error e) :
    act s = (.error e, s) :=
  Prod.ext he (h s e _ (Prod.ext he rfl))

theorem Action.submit_atomic {act : Action σ α} (h : Atomic act) (callback : Callback κ α) :
    Atomic (act.submit callback) := by
  intro (s, k) e after he
  cases ha : act s with
  | mk answer s' =>
    rw [Action.submit, ha] at he
    cases answer with
    | ok a => cases he
    | error e' =>
      obtain rfl : s' = s := h s e' s' ha
      exact (Prod.mk.inj he).2.symm

/-- A query that may not resolve, and is then not run. -/
theorem atomic_of_resolved {resolved : Except QueryError (Query Value)} {run : Query Value → Action σ α}
    (h : ∀ q, Atomic (run q)) :
    Atomic fun s : σ => match resolved with
      | .ok q => run q s
      | .error e => (.error e, s) := by
  intro s e after he
  cases resolved with
  | ok q => exact h q s e after he
  | error e' => exact (Prod.mk.inj he).2.symm

/-! ## Managers -/

/-- A manager that runs at once does with a query what the manager does, and calls back
    with the answer. -/
theorem Manager.async_execute (m : Manager σ) (callback : Callback κ (List Entity)) (q : Query Value) :
    (m.async κ).execute callback q = (m.execute q).submit callback := by
  cases q with
  | delete keys =>
    funext (s, k)
    show (m.delete keys).submit (fun _ => callback []) (s, k) = _
    cases hd : m.delete keys s with
    | mk answer s' =>
      simp only [Action.submit, Manager.execute, hd]
      cases answer <;> rfl
  | _ => rfl

theorem Manager.async_atomic {m : Manager σ} (h : ∀ q, Atomic (m.execute q)) (callback : Callback κ (List Entity))
    (q : Query Value) : Atomic ((m.async κ).execute callback q) := by
  rw [Manager.async_execute]
  exact Action.submit_atomic (h q) callback

namespace Store

theorem update_atomic (q : UpdateQuery Value) : Atomic (manager.update q) := by
  intro s e after he
  cases hu : s.update q with
  | ok changed => simp only [manager, hu] at he; cases he
  | error e' =>
    simp only [manager, hu] at he
    exact (Prod.mk.inj he).2.symm

theorem execute_atomic (q : Query Value) : Atomic (manager.execute q) := by
  cases q with
  | get keys => exact fun _ _ _ he => nomatch he
  | delete keys => exact fun _ _ _ he => nomatch he
  | select q => exact fun s e after he => (Prod.mk.inj he).2.symm
  | update q => exact update_atomic q
  | insert q => exact fun _ _ _ he => nomatch he

end Store

/-! ## Queries -/

/-- A query that fails leaves the store as it was, run at once or prepared, whatever is
    bound and asked for beside the text; submitted, it leaves the caller as well, whom
    calling back would change. -/
theorem failure_changes_nothing (d : Dialect) (text : String) (naming : Naming) (s : Statement)
    (callback : Callback κ (List Entity)) :
    Atomic (d.run text naming Store.manager) ∧
    Atomic (d.runAsync text naming (Store.manager.async κ) callback) ∧
    Atomic (s.list Store.manager) ∧
    Atomic (s.listAsync (Store.manager.async κ) callback) := by
  have hlist := Store.execute_atomic
  have hasync := Manager.async_atomic Store.execute_atomic callback
  exact ⟨atomic_of_resolved hlist, atomic_of_resolved hasync, atomic_of_resolved hlist, atomic_of_resolved hasync⟩

def renameText : String := "update Person set name = \"Di\" where name like @p"

def renamePhrase : UpdatePhrase where
  entity := "Person"
  set := ⟨⟨⟨"name", []⟩, .literal (.string "Di")⟩, []⟩
  condition := some ⟨⟨.comparison ⟨⟨"name", []⟩, .relation .like (.param "p")⟩, []⟩, []⟩

theorem read_rename : (Dialect.ofFamily .document).read renameText = .ok (.update renamePhrase.query) := by
  have hwritten : (QueryPhrase.update renamePhrase).WrittenAs renameText :=
    QueryPhrase.writtenAs_of_tokens (by decide +kernel)
  exact Dialect.read_of_writtenAs hwritten rfl

/-- A pattern of so many percent signs. -/
def percents (n : Nat) : String := String.ofList (List.replicate n '%')

theorem size_percents (n : Nat) : (Like.ofText (percents n)).size = 192 + n * 1040 := by
  have hpieces : (Like.ofText (percents n)).pieces = List.replicate n .run := by
    simp [Like.ofText, percents, LikePiece.ofChar]
  rw [Like.size, hpieces]
  generalize 192 = start
  clear hpieces
  induction n generalizing start with
  | zero => simp
  | succ n ih =>
    rw [List.replicate_succ, List.foldl_cons, ih, LikePiece.size]
    omega

theorem compile_percents {n : Nat} (h : Like.sizeLimit < 192 + n * 1040) :
    Like.compile (percents n) = .error (.query (.patternTooLarge Like.sizeLimit)) := by
  rw [← size_percents] at h
  rw [Like.compile, if_neg (Nat.not_le.mpr h)]

theorem Filter.keeping_like (field : String) {pattern : String} {e : QueryError} (h : Like.compile pattern = .error e) :
    keeping (some (.compare field .like (.string pattern))) = .error e := by
  have hpatterns : Query.distinct (Condition.compare field .like (Value.string pattern)).likePatterns = [pattern] := rfl
  rw [keeping, compile, hpatterns, compileAll, h]
  rfl

/-- A pattern that is too large fails inside the store, and nobody is renamed. -/
theorem failure_changes_nothing_rename :
    let d := Dialect.ofFamily .document
    let store : Store := people.foldl .add .empty
    let noting : Callback (List (List Entity)) (List Entity) := fun es log => log ++ [es]
    let tooLarge := QueryError.query (.patternTooLarge Like.sizeLimit)
    d.run renameText .identity Store.manager store = (.error (.query (.preparationNeeded ["p"])), store) ∧
    ∃ prepared s, d.prepare renameText .identity = .ok prepared ∧
      prepared.bind "p" (.string (percents 10083)) = .ok s ∧
      s.list Store.manager store = (.error tooLarge, store) ∧
      s.listAsync (Store.manager.async _) noting (store, []) = (.error tooLarge, store, []) := by
  intro d store noting tooLarge
  -- The pattern goes by a name, so that nothing below computes it.
  obtain ⟨pattern, hname, hpattern⟩ : ∃ pattern, percents 10083 = pattern ∧ Like.compile pattern = .error tooLarge :=
    ⟨_, rfl, compile_percents (by decide)⟩
  rw [hname]
  let prepared : Statement := .ofQuery (.update renamePhrase.query) .identity d.convert
  let s : Statement := { prepared with bindings := ⟨["p"], [("p", .string pattern)]⟩ }
  obtain ⟨hrun, -, hlist, hasync⟩ := failure_changes_nothing d renameText .identity s noting
  have hneeded : d.resolve renameText .identity = .error (.query (.preparationNeeded ["p"])) := by
    rw [Dialect.resolve, read_rename]
    rfl
  have hresolve : s.resolve =
      .ok (.update ⟨"Person", [⟨"name", .string "Di"⟩], some (.compare "name" .like (.string pattern))⟩) := rfl
  have hpeople : store.collection? "Person" = some people := rfl
  have htooLarge : Filter.keeping (some (.compare "name" .like (.string pattern))) = .error tooLarge :=
    Filter.keeping_like "name" hpattern
  refine ⟨hrun.eq ?_, prepared, s, Dialect.prepare_eq_ok.mpr ⟨_, read_rename, rfl⟩, rfl, hlist.eq ?_, hasync.eq ?_⟩
  · rw [Dialect.run, hneeded]
  · simp only [Statement.list, hresolve, Manager.execute, Store.manager, Store.update, hpeople, htooLarge, Except.map]
  · simp only [Statement.listAsync, hresolve, Manager.async_execute, Action.submit, Manager.execute, Store.manager,
      Store.update, hpeople, htooLarge, Except.map]

end EntityQuery
