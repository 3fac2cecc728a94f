/-
  EntityQuery.Proofs.Execution — what reaches a manager.

  A query reaches a manager with its payload: the query of the renamed shape whose
  operands are what its own denote, with the paging applied if it is a select
  (`Payload`). A prepared statement is run in a `World` of a manager and a caller, any
  way its binds, pagings and executions follow each other; of what came before, an
  execution sees the last bind of each name and the last paging alone
  (`run_statement`).

  Managers are logged, so a call is an entry of the log: an execution that resolves
  adds its payload and nothing else, one that does not leaves log and states as they
  are.
-/

import EntityQuery.Dialect
import EntityQuery.Proofs.Grammar.Text
import EntityQuery.Proofs.Resolution

namespace EntityQuery

variable {σ κ : Type}

/-! ## Payloads -/

/-- Whether a query resolves: all parameters are bound, and every conversion succeeds. -/
structure Resolvable (q : Query Operand) (convert : Converter) (bound : String → Option Value) : Prop where
  bound : ∀ name ∈ q.parameters, ∃ v, bound name = some v
  converts : ∀ c ∈ q.conversions, ∃ v, convert c.1 c.2 = .ok v

/-- The paging of a select; other queries have none. -/
def Query.paged (q : Query Operand) (naming : Naming) (paging : Paging) (resolved : Query Value) : Query Value :=
  match q, resolved with
  | .select logical, .select s => .select (paging.apply (naming.field logical.entity) s)
  | _, r => r

/-- What a query is when it reaches a manager. -/
def Payload (q : Query Operand) (naming : Naming) (convert : Converter) (bound : String → Option Value)
    (paging : Paging) (p : Query Value) : Prop :=
  ∃ r : Query Value, r.shape = q.map naming (fun _ => ()) ∧ DenoteAll bound convert q.values r.values ∧
    p = q.paged naming paging r

theorem Query.operation_of_shape {V W : Type} {naming : Naming} {q : Query V} {r : Query W}
    (h : r.shape = q.map naming fun _ => ()) : r.operation = q.operation := by
  cases q <;> cases r <;> first | rfl | cases h

theorem Query.paged_operation (q : Query Operand) (naming : Naming) (paging : Paging) (r : Query Value) :
    (q.paged naming paging r).operation = r.operation := by
  cases q <;> cases r <;> rfl

theorem Payload.operation {q : Query Operand} {naming : Naming} {convert : Converter} {bound : String → Option Value}
    {paging : Paging} {p : Query Value} (h : Payload q naming convert bound paging p) : p.operation = q.operation := by
  obtain ⟨r, hs, -, rfl⟩ := h
  rw [Query.paged_operation, Query.operation_of_shape hs]

/-- A payload depends on the parameters' bindings alone, and on the paging if it is a select. -/
theorem Payload.unique {q : Query Operand} {naming : Naming} {convert : Converter}
    {bound bound' : String → Option Value} {paging paging' : Paging} {p p' : Query Value}
    (hb : ∀ name ∈ q.parameters, bound name = bound' name)
    (hp : q.operation = .select → paging = paging') (h : Payload q naming convert bound paging p)
    (h' : Payload q naming convert bound' paging' p') : p = p' := by
  obtain ⟨r, hs, hv, rfl⟩ := h
  obtain ⟨r', hs', hv', rfl⟩ := h'
  have hvalues : r.values = r'.values := hv.unique (fun name hn => hb name (Query.mem_itemParams.mp hn)) hv'
  rw [Query.eq_of_shape (hs.trans hs'.symm) hvalues]
  cases q with
  | select q => rw [hp rfl]
  | _ => rfl

namespace Bindings

/-- After any binds, a query that resolves does so to what its operands denote. -/
theorem resolve_bindAll (q : Query Operand) (history : List (String × Value)) (naming : Naming) (convert : Converter) :
    (Resolvable q convert (lastBound history) → ∃ r, ((ofQuery q).bindAll history).resolve q naming convert = .ok r ∧
      r.shape = q.map naming (fun _ => ()) ∧ DenoteAll (lastBound history) convert q.values r.values) ∧
    (¬ Resolvable q convert (lastBound history) →
      ∃ e, ((ofQuery q).bindAll history).resolve q naming convert = .error e) := by
  have hd : ((ofQuery q).bindAll history).declared = q.parameters := bindAll_declared _ history
  have hb := isAllBound_bindAll q history
  have hsucceeds : (∃ r, ((ofQuery q).bindAll history).resolve q naming convert = .ok r) ↔ _ :=
    resolve_succeeds_iff convert hd
  constructor
  · intro h
    have hall := hb.mpr h.bound
    obtain ⟨r, hr⟩ := hsucceeds.mpr ⟨hall, h.converts⟩
    have hitems : ∀ name ∈ Operand.itemParams q.values,
        ((ofQuery q).bindAll history).get? name = lastBound history name :=
      fun name hn => get?_bindAll_ofQuery (Query.mem_itemParams.mp hn) history
    exact ⟨r, hr, (resolve_eq_ok convert hall hitems).mp hr⟩
  · intro h
    cases hr : ((ofQuery q).bindAll history).resolve q naming convert with
    | ok r =>
      obtain ⟨hall, hc⟩ := hsucceeds.mp ⟨r, hr⟩
      exact absurd ⟨hb.mp hall, hc⟩ h
    | error e => exact ⟨e, rfl⟩

end Bindings

/-! ## Managers -/

/-- How a manager answers a query: a deletion that succeeds answers no entities, and an
    error stays what it is. -/
inductive Manager.Answers (m : Manager σ) (s : σ) : Query Value → Except QueryError (List Entity) × σ → Prop
  | get (keys : List Value) : Answers m s (.get keys) (m.get keys s)
  | deleted {keys : List Value} {s' : σ} : m.delete keys s = (.ok (), s') → Answers m s (.delete keys) (.ok [], s')
  | notDeleted {keys : List Value} {e : QueryError} {s' : σ} : m.delete keys s = (.error e, s') →
      Answers m s (.delete keys) (.error e, s')
  | select (q : SelectQuery Value) : Answers m s (.select q) (m.select q s)
  | update (q : UpdateQuery Value) : Answers m s (.update q) (m.update q s)
  | insert (q : InsertQuery Value) : Answers m s (.insert q) (m.insert q s)

theorem Manager.execute_answers (m : Manager σ) (s : σ) (p : Query Value) : m.Answers s p (m.execute p s) := by
  cases p with
  | get keys => exact .get keys
  | delete keys =>
    cases hd : m.delete keys s with
    | mk answer s' =>
      have he : m.execute (.delete keys) s = (answer.map fun _ => [], s') := by simp only [execute, hd]
      rw [he]
      cases answer with
      | ok _ => exact .deleted hd
      | error e => exact .notDeleted hd
  | select q => exact .select q
  | update q => exact .update q
  | insert q => exact .insert q

theorem Manager.execute_logged (m : Manager σ) (p : Query Value) (log : List (Query Value)) (s : σ) :
    m.logged.execute p (log, s) = ((m.execute p s).1, log ++ [p], (m.execute p s).2) := by
  cases p <;> rfl

/-- How an asynchronous manager takes a query: a deletion calls back with no entities. -/
inductive AsyncManager.Takes (m : AsyncManager σ κ) (callback : Callback κ (List Entity)) (s : σ × κ) :
    Query Value → Except QueryError Unit × σ × κ → Prop
  | get (keys : List Value) : Takes m callback s (.get keys) (m.get keys callback s)
  | delete (keys : List Value) : Takes m callback s (.delete keys) (m.delete keys (fun _ => callback []) s)
  | select (q : SelectQuery Value) : Takes m callback s (.select q) (m.select q callback s)
  | update (q : UpdateQuery Value) : Takes m callback s (.update q) (m.update q callback s)
  | insert (q : InsertQuery Value) : Takes m callback s (.insert q) (m.insert q callback s)

theorem AsyncManager.execute_takes (m : AsyncManager σ κ) (callback : Callback κ (List Entity)) (s : σ × κ)
    (p : Query Value) : m.Takes callback s p (m.execute callback p s) := by
  cases p with
  | get keys => exact .get keys
  | delete keys => exact .delete keys
  | select q => exact .select q
  | update q => exact .update q
  | insert q => exact .insert q

theorem AsyncManager.execute_logged (m : AsyncManager σ κ) (callback : Callback κ (List Entity)) (p : Query Value)
    (log : List (Query Value)) (s : σ) (k : κ) :
    m.logged.execute callback p ((log, s), k) =
      ((m.execute callback p (s, k)).1, (log ++ [p], (m.execute callback p (s, k)).2.1),
        (m.execute callback p (s, k)).2.2) := by
  cases p <;> rfl

/-! ## Calls -/

/-- Something fails and changes nothing. -/
def Refused {α β : Type} (act : Action α β) (s : α) : Prop := ∃ e, act s = (.error e, s)

/-- Something calls a manager once, with a payload, and makes its own answer of the
    manager's. -/
def CallsOnce {β : Type} (m : Manager σ) (p : Query Value) (answer : List Entity → Except QueryError β)
    (act : Action (List (Query Value) × σ) β) (s : List (Query Value) × σ) : Prop :=
  ∃ a s', m.Answers s.2 p (a, s') ∧ act s = (a.bind answer, s.1 ++ [p], s')

/-- Something submits a payload to a manager once, and answers as it does. -/
def SubmitsOnce (m : AsyncManager σ κ) (p : Query Value) (callback : Callback κ (List Entity))
    (act : Submission (List (Query Value) × σ) κ) (s : (List (Query Value) × σ) × κ) : Prop :=
  ∃ a s' k, m.Takes callback (s.1.2, s.2) p (a, s', k) ∧ act s = (a, (s.1.1 ++ [p], s'), k)

theorem Manager.execute_callsOnce (m : Manager σ) (p : Query Value) (s : List (Query Value) × σ) :
    CallsOnce m p .ok (m.logged.execute p) s := by
  obtain ⟨log, s⟩ := s
  have hbind : ∀ a : Except QueryError (List Entity), a.bind .ok = a := fun a => by cases a <;> rfl
  refine ⟨(m.execute p s).1, (m.execute p s).2, m.execute_answers s p, ?_⟩
  rw [hbind]
  exact m.execute_logged p log s

theorem AsyncManager.execute_submitsOnce (m : AsyncManager σ κ) (p : Query Value) (callback : Callback κ (List Entity))
    (s : (List (Query Value) × σ) × κ) : SubmitsOnce m p callback (m.logged.execute callback p) s := by
  obtain ⟨⟨log, s⟩, k⟩ := s
  exact ⟨_, _, _, m.execute_takes callback (s, k) p, m.execute_logged callback p log s k⟩

namespace Statement

variable {s : Statement} (m : Manager σ) (am : AsyncManager σ κ)

theorem refused_of_error {e : QueryError} (h : s.resolve = .error e) (S : σ) (T : σ × κ)
    (callback : Callback κ (List Entity)) :
    Refused (s.list m) S ∧ Refused (s.single m) S ∧ Refused (s.listAsync am callback) T := by
  have hlist : s.list m S = (.error e, S) := by rw [list, h]
  have hasync : s.listAsync am callback T = (.error e, T) := by rw [listAsync, h]
  refine ⟨⟨e, hlist⟩, ⟨e, ?_⟩, ⟨e, hasync⟩⟩
  rw [single, hlist]
  rfl

theorem list_callsOnce {p : Query Value} (h : s.resolve = .ok p) (S : List (Query Value) × σ) :
    CallsOnce m p .ok (s.list m.logged) S := by
  obtain ⟨a, s', ha, he⟩ := m.execute_callsOnce p S
  exact ⟨a, s', ha, by rw [list, h]; exact he⟩

theorem single_callsOnce {p : Query Value} (h : s.resolve = .ok p) (S : List (Query Value) × σ) :
    CallsOnce m p single? (s.single m.logged) S := by
  obtain ⟨a, s', ha, he⟩ := list_callsOnce m h S
  refine ⟨a, s', ha, ?_⟩
  rw [single, he]
  cases a <;> rfl

theorem listAsync_submitsOnce {p : Query Value} (h : s.resolve = .ok p) (callback : Callback κ (List Entity))
    (S : (List (Query Value) × σ) × κ) : SubmitsOnce am p callback (s.listAsync am.logged callback) S := by
  obtain ⟨a, s', k, ha, he⟩ := am.execute_submitsOnce p callback S
  exact ⟨a, s', k, ha, by rw [listAsync, h]; exact he⟩

end Statement

/-! ## Runs of a statement -/

/-- What may be done with a prepared statement. -/
inductive Event (κ : Type) where
  | bind (name : String) (value : Value)
  | paging (p : Paging)
  | list
  | single
  | listAsync (callback : Callback κ (List Entity))

/-- A prepared statement, the calls that reached its managers, their state and the
    caller's. -/
structure World (σ κ : Type) where
  statement : Statement
  calls : List (Query Value)
  state : σ
  caller : κ

/-- The binds of a run in order, those that fail included. -/
def binds : List (Event κ) → List (String × Value)
  | [] => []
  | .bind name value :: events => (name, value) :: binds events
  | _ :: events => binds events

/-- The paging at the end of a run. -/
def lastPaging (p : Paging) : List (Event κ) → Paging
  | [] => p
  | .paging p' :: events => lastPaging p' events
  | _ :: events => lastPaging p events

namespace World

variable (m : Manager σ) (am : AsyncManager σ κ)

def step (w : World σ κ) : Event κ → World σ κ
  | .bind name value =>
    match w.statement.bind name value with
    | .ok s => { w with statement := s }
    | .error _ => w
  | .paging p => { w with statement := w.statement.withPaging p }
  | .list =>
    let (_, calls, state) := w.statement.list m.logged (w.calls, w.state)
    { w with calls := calls, state := state }
  | .single =>
    let (_, calls, state) := w.statement.single m.logged (w.calls, w.state)
    { w with calls := calls, state := state }
  | .listAsync callback =>
    let (_, (calls, state), caller) := w.statement.listAsync am.logged callback ((w.calls, w.state), w.caller)
    { w with calls := calls, state := state, caller := caller }

def run (w : World σ κ) (events : List (Event κ)) : World σ κ := events.foldl (step m am) w

theorem step_bind (w : World σ κ) (name : String) (value : Value) :
    (w.step m am (.bind name value)).statement =
      { w.statement with bindings := w.statement.bindings.tryBind name value } := by
  simp only [step, Statement.bind, Bindings.tryBind]
  cases w.statement.bindings.bind name value <;> rfl

/-- The binds and the last paging are all that a run leaves in its statement. -/
theorem run_statement (w : World σ κ) (events : List (Event κ)) :
    (w.run m am events).statement =
      { w.statement with
        bindings := w.statement.bindings.bindAll (binds events)
        paging := lastPaging w.statement.paging events } := by
  induction events generalizing w with
  | nil => rfl
  | cons event events ih =>
    have h := ih (w.step m am event)
    cases event with
    | bind name value =>
      rw [step_bind] at h
      exact h
    | paging p => exact h
    | list => exact h
    | single => exact h
    | listAsync callback => exact h

end World

theorem Statement.resolve_after_run (m : Manager σ) (am : AsyncManager σ κ) (q : Query Operand) (naming : Naming)
    (convert : Converter) {w : World σ κ} (hw : w.statement = .ofQuery q naming convert) (events : List (Event κ)) :
    (Resolvable q convert (lastBound (binds events)) → ∃ p, (w.run m am events).statement.resolve = .ok p ∧
      Payload q naming convert (lastBound (binds events)) (lastPaging .empty events) p) ∧
    (¬ Resolvable q convert (lastBound (binds events)) → ∃ e, (w.run m am events).statement.resolve = .error e) := by
  obtain ⟨hok, herror⟩ := Bindings.resolve_bindAll q (binds events) naming convert
  have hs : (w.run m am events).statement.resolve =
      (((Bindings.ofQuery q).bindAll (binds events)).resolve q naming convert).map
        (q.paged naming (lastPaging .empty events)) := by
    rw [World.run_statement, hw]
    rfl
  rw [hs]
  constructor
  · intro h
    obtain ⟨r, hr, hshape, hvalues⟩ := hok h
    exact ⟨_, by rw [hr]; rfl, r, hshape, hvalues, rfl⟩
  · intro h
    obtain ⟨e, he⟩ := herror h
    exact ⟨e, by rw [he]; rfl⟩

/-! ## Queries that are run at once -/

theorem Query.paged_empty (q : Query Operand) (naming : Naming) (r : Query Value) : q.paged naming .empty r = r := by
  cases q <;> cases r <;> simp [paged, Paging.apply, Paging.empty, Paging.window?]

/-- A prepared query after some binds. -/
def Statement.bound (q : Query Operand) (naming : Naming) (convert : Converter) (history : List (String × Value)) :
    Statement :=
  { ofQuery q naming convert with bindings := (Bindings.ofQuery q).bindAll history }

theorem Statement.resolve_bound (q : Query Operand) (naming : Naming) (convert : Converter)
    (history : List (String × Value)) :
    (bound q naming convert history).resolve = ((Bindings.ofQuery q).bindAll history).resolve q naming convert := by
  show (Bindings.resolve _ q naming convert).map (Query.paged q naming .empty) = _
  rw [funext (Query.paged_empty q naming)]
  exact id_map (f := Except QueryError) _

namespace Dialect

variable {d : Dialect} {text : String} {naming : Naming}

theorem read_eq_ok {q : Query Operand} : d.read text = .ok q ↔
    (Text.trim text.toList).isEmpty = false ∧ Query.parse text = .ok q ∧ d.family.allows q.operation = true := by
  rw [read]
  by_cases hblank : (Text.trim text.toList).isEmpty = true
  · simp [hblank]
  · rw [if_neg hblank]
    cases hparse : Query.parse text with
    | error e => simp [Except.bind]
    | ok r =>
      show (if d.family.allows r.operation = true then Except.ok r else _) = _ ↔ _
      by_cases hr : d.family.allows r.operation = true
      · rw [if_pos hr]
        constructor
        · intro h
          obtain rfl := Except.ok.inj h
          exact ⟨Bool.eq_false_iff.mpr hblank, rfl, hr⟩
        · intro ⟨_, h, _⟩
          exact h
      · rw [if_neg hr]
        constructor
        · intro h
          cases h
        · intro ⟨_, h, hq⟩
          obtain rfl := Except.ok.inj h
          exact absurd hq hr

/-- A dialect reads the texts of a phrase whose operation it has. -/
theorem read_of_writtenAs {p : QueryPhrase} (h : p.WrittenAs text) (ha : d.family.allows p.query.operation = true) :
    d.read text = .ok p.query :=
  read_eq_ok.mpr ⟨h.not_blank, Query.parse_of_writtenAs h, ha⟩

theorem prepare_eq_ok {s : Statement} :
    d.prepare text naming = .ok s ↔ ∃ q, d.read text = .ok q ∧ s = .ofQuery q naming d.convert := by
  rw [prepare]
  cases d.read text with
  | error e => simp [Except.map]
  | ok q => simp [Except.map, eq_comm]

theorem resolve_of_resolvable {q : Query Operand} (hq : d.read text = .ok q)
    (h : Resolvable q d.convert fun _ => none) :
    ∃ p, d.resolve text naming = .ok p ∧ Payload q naming d.convert (fun _ => none) .empty p := by
  obtain ⟨r, hr, hshape, hvalues⟩ := (Bindings.resolve_bindAll q [] naming d.convert).1 h
  have hnone : q.parameters.isEmpty = true := by
    rw [List.isEmpty_iff, List.eq_nil_iff_forall_not_mem]
    intro name hn
    obtain ⟨v, hv⟩ := h.bound name hn
    cases hv
  refine ⟨r, ?_, r, hshape, hvalues, (Query.paged_empty q naming r).symm⟩
  rw [resolve, hq]
  show (if q.parameters.isEmpty = true then _ else _) = _
  rw [if_pos hnone]
  exact hr

theorem resolve_of_not_resolvable (h : ∀ q, d.read text = .ok q → ¬ Resolvable q d.convert fun _ => none) :
    ∃ e, d.resolve text naming = .error e := by
  rw [resolve]
  cases hq : d.read text with
  | error e => exact ⟨e, rfl⟩
  | ok q =>
    show ∃ e, (if q.parameters.isEmpty = true then _ else _) = _
    by_cases hnone : q.parameters.isEmpty = true
    · rw [if_pos hnone]
      exact (Bindings.resolve_bindAll q [] naming d.convert).2 (h q hq)
    · rw [if_neg hnone]
      exact ⟨_, rfl⟩

theorem refused_of_error {e : QueryError} (h : d.resolve text naming = .error e) (m : Manager σ) (am : AsyncManager σ κ)
    (S : σ) (T : σ × κ) (callback : Callback κ (List Entity)) :
    Refused (d.run text naming m) S ∧ Refused (d.runAsync text naming am callback) T := by
  have hrun : d.run text naming m S = (.error e, S) := by rw [run, h]
  have hasync : d.runAsync text naming am callback T = (.error e, T) := by rw [runAsync, h]
  exact ⟨⟨e, hrun⟩, ⟨e, hasync⟩⟩

theorem run_callsOnce {p : Query Value} (h : d.resolve text naming = .ok p) (m : Manager σ)
    (S : List (Query Value) × σ) : CallsOnce m p .ok (d.run text naming m.logged) S := by
  obtain ⟨a, s', ha, he⟩ := m.execute_callsOnce p S
  exact ⟨a, s', ha, by rw [run, h]; exact he⟩

theorem runAsync_submitsOnce {p : Query Value} (h : d.resolve text naming = .ok p) (am : AsyncManager σ κ)
    (callback : Callback κ (List Entity)) (S : (List (Query Value) × σ) × κ) :
    SubmitsOnce am p callback (d.runAsync text naming am.logged callback) S := by
  obtain ⟨a, s', k, ha, he⟩ := am.execute_submitsOnce p callback S
  exact ⟨a, s', k, ha, by rw [runAsync, h]; exact he⟩

end Dialect

/-- Whatever was done with a prepared statement, an execution of it fails and reaches no
    manager as long as it does not resolve, and else calls the manager once, with a
    payload that depends on the last bindings and the last paging alone. A query that is
    run at once does likewise, with nothing bound and no paging. -/
theorem execution_after_events (d : Dialect) (text : String) (naming : Naming) (m : Manager σ) (am : AsyncManager σ κ)
    (calls : List (Query Value)) (state : σ) (caller : κ) :
    (∀ q, d.read text = .ok q ↔ (Text.trim text.toList).isEmpty = false ∧ Query.parse text = .ok q ∧
      d.family.allows q.operation = true) ∧
    (∀ s, d.prepare text naming = .ok s ↔ ∃ q, d.read text = .ok q ∧ s = .ofQuery q naming d.convert) ∧
    (∀ q events, d.read text = .ok q →
      let w := World.run m am ⟨.ofQuery q naming d.convert, calls, state, caller⟩ events
      let bound := lastBound (binds events)
      (¬ Resolvable q d.convert bound →
        Refused (w.statement.list m.logged) (w.calls, w.state) ∧
        Refused (w.statement.single m.logged) (w.calls, w.state) ∧
        ∀ callback, Refused (w.statement.listAsync am.logged callback) ((w.calls, w.state), w.caller)) ∧
      (Resolvable q d.convert bound → ∃ p, Payload q naming d.convert bound (lastPaging .empty events) p ∧
        p.operation = q.operation ∧
        (∀ (others : List (Event κ)) p', (∀ name ∈ q.parameters, lastBound (binds others) name = bound name) →
          (q.operation = .select → lastPaging .empty others = lastPaging .empty events) →
          Payload q naming d.convert (lastBound (binds others)) (lastPaging .empty others) p' → p' = p) ∧
        CallsOnce m p .ok (w.statement.list m.logged) (w.calls, w.state) ∧
        CallsOnce m p Statement.single? (w.statement.single m.logged) (w.calls, w.state) ∧
        ∀ callback, SubmitsOnce am p callback (w.statement.listAsync am.logged callback)
          ((w.calls, w.state), w.caller))) ∧
    ((∀ q, d.read text = .ok q → ¬ Resolvable q d.convert fun _ => none) →
      Refused (d.run text naming m.logged) (calls, state) ∧
      ∀ callback, Refused (d.runAsync text naming am.logged callback) ((calls, state), caller)) ∧
    (∀ q, d.read text = .ok q → Resolvable q d.convert (fun _ => none) →
      ∃ p, Payload q naming d.convert (fun _ => none) .empty p ∧ p.operation = q.operation ∧
        CallsOnce m p .ok (d.run text naming m.logged) (calls, state) ∧
        ∀ callback, SubmitsOnce am p callback (d.runAsync text naming am.logged callback)
          ((calls, state), caller)) := by
  refine ⟨fun q => Dialect.read_eq_ok, fun s => Dialect.prepare_eq_ok, ?_, ?_, ?_⟩
  · intro q events _ w bound
    obtain ⟨hok, herror⟩ := Statement.resolve_after_run m am q naming d.convert
      (w := ⟨.ofQuery q naming d.convert, calls, state, caller⟩) rfl events
    constructor
    · intro h
      obtain ⟨e, he⟩ := herror h
      have hrefused :=
        Statement.refused_of_error m.logged am.logged he (w.calls, w.state) ((w.calls, w.state), w.caller)
      exact ⟨(hrefused fun _ => id).1, (hrefused fun _ => id).2.1, fun callback => (hrefused callback).2.2⟩
    · intro h
      obtain ⟨p, hp, hpayload⟩ := hok h
      exact ⟨p, hpayload, hpayload.operation, fun others p' hbound hpaging h' => h'.unique hbound hpaging hpayload,
        Statement.list_callsOnce m hp _, Statement.single_callsOnce m hp _,
        fun callback => Statement.listAsync_submitsOnce am hp callback _⟩
  · intro h
    obtain ⟨e, he⟩ := Dialect.resolve_of_not_resolvable h
    have hrefused := Dialect.refused_of_error he m.logged am.logged (calls, state) ((calls, state), caller)
    exact ⟨(hrefused fun _ => id).1, fun callback => (hrefused callback).2⟩
  · intro q hq h
    obtain ⟨p, hp, hpayload⟩ := Dialect.resolve_of_resolvable hq h
    exact ⟨p, hpayload, hpayload.operation, Dialect.run_callsOnce hp m _,
      fun callback => Dialect.runAsync_submitsOnce hp am callback _⟩

theorem read_get_id : (Dialect.ofFamily .keyValue).read "get @id" = .ok (.get [.param "id"]) := by
  have hwritten : (QueryPhrase.get ⟨.param "id", []⟩).WrittenAs "get @id" :=
    QueryPhrase.writtenAs_of_tokens (by decide +kernel)
  exact Dialect.read_of_writtenAs hwritten rfl

theorem execution_after_events_get :
    let d := Dialect.ofFamily .keyValue
    let q : Query Operand := .get [.param "id"]
    let m : Manager Unit := .answering (.ok [])
    let world (events : List (Event Unit)) :=
      World.run m (m.async Unit) ⟨.ofQuery q .identity d.convert, [], (), ()⟩ events
    let events : List (Event Unit) := [.list, .bind "id" .null]
    Refused ((world []).statement.list m.logged) ((world []).calls, (world []).state) ∧
      ∃ p, Payload q .identity d.convert (lastBound (binds events)) (lastPaging .empty events) p ∧
        CallsOnce m p .ok ((world events).statement.list m.logged) ((world events).calls, (world events).state) := by
  intro d q m world events
  obtain ⟨-, -, hrun, -⟩ := execution_after_events d "get @id" .identity m (m.async Unit) [] () ()
  constructor
  · refine ((hrun q [] read_get_id).1 fun h => ?_).1
    obtain ⟨v, hv⟩ := h.bound "id" List.mem_cons_self
    cases hv
  · have hr : Resolvable q d.convert (lastBound (binds events)) := by
      refine ⟨?_, nofun⟩
      intro name hn
      obtain rfl : name = "id" := List.mem_singleton.mp hn
      exact ⟨.null, rfl⟩
    obtain ⟨p, hp, -, -, hcall, -⟩ := (hrun q events read_get_id).2 hr
    exact ⟨p, hp, hcall⟩

end EntityQuery
