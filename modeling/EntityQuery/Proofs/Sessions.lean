/-
  EntityQuery.Proofs.Sessions — submitting a query to the store comes to the same as
  running it at once.

  (1) One query. A manager that runs at once does for a submission what it does for a
  call, and calls back once with the answer, or not at all with an error
  (`Dialect.runAsync_async`, `Statement.listAsync_async`).

  (2) Sessions. In a session a caller changes a store, prepares statements on it, binds
  them, and runs queries in either mode: at once, taking the answer to its callback
  itself, or submitted with the callback. Modes may be exchanged request by request
  (`Session.run_congr`).
-/

import EntityQuery.Proofs.Atomicity
import EntityQuery.Proofs.Invariants

namespace EntityQuery

variable {σ κ α : Type}

/-! ## (1) One query -/

theorem Dialect.runAsync_async (d : Dialect) (text : String) (naming : Naming) (m : Manager σ)
    (callback : Callback κ (List Entity)) :
    d.runAsync text naming (m.async κ) callback = (d.run text naming m).submit callback := by
  funext (s, k)
  simp only [runAsync, Action.submit, run]
  cases d.resolve text naming with
  | ok q => exact congrFun (m.async_execute callback q) (s, k)
  | error e => rfl

theorem Statement.listAsync_async (s : Statement) (m : Manager σ) (callback : Callback κ (List Entity)) :
    s.listAsync (m.async κ) callback = (s.list m).submit callback := by
  funext (state, k)
  simp only [listAsync, Action.submit, list]
  cases s.resolve with
  | ok q => exact congrFun (m.async_execute callback q) (state, k)
  | error e => rfl

/-! ### Deletions answer no entities -/

theorem Manager.execute_delete {m : Manager σ} {q : Query Value} (hq : q.operation = .delete) {s s' : σ}
    {es : List Entity} (h : m.execute q s = (.ok es, s')) : es = [] := by
  cases q with
  | delete keys =>
    cases hd : m.delete keys s with
    | mk answer after =>
      simp only [execute, hd] at h
      cases answer with
      | ok _ => exact (Except.ok.inj (Prod.mk.inj h).1).symm
      | error e => cases h
  | _ => cases hq

theorem Bindings.resolve_operation {b : Bindings} {q : Query Operand} {naming : Naming} {convert : Converter}
    {r : Query Value} (h : b.resolve q naming convert = .ok r) : r.operation = q.operation := by
  unfold resolve at h
  split at h
  · exact Query.operation_of_shape (Query.substitute_eq_ok.mp h).1
  · cases h

theorem Dialect.resolve_operation {d : Dialect} {text : String} {naming : Naming} {q : Query Operand} {r : Query Value}
    (hq : d.read text = .ok q) (h : d.resolve text naming = .ok r) : r.operation = q.operation := by
  rw [resolve, hq] at h
  change (if q.parameters.isEmpty = true then _ else _) = _ at h
  split at h
  · exact Bindings.resolve_operation h
  · cases h

theorem Statement.resolve_operation {s : Statement} {r : Query Value} (h : s.resolve = .ok r) :
    r.operation = s.query.operation := by
  rw [resolve] at h
  cases hb : s.bindings.resolve s.query s.naming s.convert with
  | error e => rw [hb] at h; cases h
  | ok p =>
    rw [hb] at h
    obtain rfl : s.query.paged s.naming s.paging p = r := Except.ok.inj h
    rw [Query.paged_operation]
    exact Bindings.resolve_operation hb

theorem Dialect.run_delete {d : Dialect} {text : String} {naming : Naming} {m : Manager σ} {q : Query Operand}
    (hq : d.read text = .ok q) (hdelete : q.operation = .delete) {s s' : σ} {es : List Entity}
    (h : d.run text naming m s = (.ok es, s')) : es = [] := by
  rw [run] at h
  cases hr : d.resolve text naming with
  | ok r =>
    rw [hr] at h
    exact Manager.execute_delete ((resolve_operation hq hr).trans hdelete) h
  | error e => rw [hr] at h; cases h

theorem Statement.list_delete {s : Statement} {m : Manager σ} (hdelete : s.query.operation = .delete) {state after : σ}
    {es : List Entity} (h : s.list m state = (.ok es, after)) : es = [] := by
  rw [list] at h
  cases hr : s.resolve with
  | ok r =>
    rw [hr] at h
    exact Manager.execute_delete ((resolve_operation hr).trans hdelete) h
  | error e => rw [hr] at h; cases h

/-! ## (2) Sessions -/

inductive Mode where
  | atOnce
  | submitted

/-- Runs something in a mode. At once, the caller takes the answer to its callback itself. -/
def Mode.run (mode : Mode) (act : Action σ α) (submit : Callback κ α → Submission σ κ) (callback : Callback κ α) :
    Submission σ κ :=
  match mode with
  | atOnce => act.submit callback
  | submitted => submit callback

/-- What a caller may do. Answers go to its callbacks. -/
inductive Request (κ : Type) where
  | put (key : Value) (e : Entity)
  | add (e : Entity)
  | execute (mode : Mode) (q : Query Value) (callback : Callback κ (List Entity))
  | query (mode : Mode) (d : Dialect) (text : String) (naming : Naming) (callback : Callback κ (List Entity))
  | prepare (id : String) (d : Dialect) (text : String) (naming : Naming)
  | bind (id name : String) (value : Value)
  | paging (id : String) (p : Paging)
  | single (id : String) (callback : Callback κ (Option Entity))
  | list (mode : Mode) (id : String) (callback : Callback κ (List Entity))

/-- The same request in another mode, if it has one. -/
def Request.inMode (mode : Mode) : Request κ → Request κ
  | .execute _ q callback => .execute mode q callback
  | .query _ d text naming callback => .query mode d text naming callback
  | .list _ id callback => .list mode id callback
  | r => r

/-- What a request reports beside its answer: nothing where no statement has the name. -/
abbrev Report := Option (Except QueryError Unit)

/-- A store, the statements prepared on it, and the caller's own state. -/
structure Session (κ : Type) where
  store : Store
  statements : List (String × Statement)
  caller : κ

namespace Session

def submit (s : Session κ) (submission : Submission Store κ) : Report × Session κ :=
  let (report, store, caller) := submission (s.store, s.caller)
  (some report, { s with store := store, caller := caller })

/-- Names a new statement, or the one that takes an old one's place. -/
def keep (s : Session κ) (id : String) : Except QueryError Statement → Report × Session κ
  | .ok statement => (some (.ok ()), { s with statements := (id, statement) :: s.statements })
  | .error e => (some (.error e), s)

/-- Does something with the statement of a name. -/
def withStatement (s : Session κ) (id : String) (f : Statement → Report × Session κ) : Report × Session κ :=
  match s.statements.lookup id with
  | some statement => f statement
  | none => (none, s)

def step (s : Session κ) : Request κ → Report × Session κ
  | .put key e => (some (.ok ()), { s with store := s.store.put key e })
  | .add e => (some (.ok ()), { s with store := s.store.add e })
  | .execute mode q callback =>
    s.submit (mode.run (Store.manager.execute q) ((Store.manager.async κ).execute · q) callback)
  | .query mode d text naming callback =>
    s.submit (mode.run (d.run text naming Store.manager) (d.runAsync text naming (Store.manager.async κ)) callback)
  | .prepare id d text naming => s.keep id (d.prepare text naming)
  | .bind id name value => s.withStatement id fun statement => s.keep id (statement.bind name value)
  | .paging id p => s.withStatement id fun statement => s.keep id (.ok (statement.withPaging p))
  | .single id callback =>
    s.withStatement id fun statement => s.submit (Action.submit (statement.single Store.manager) callback)
  | .list mode id callback =>
    s.withStatement id fun statement =>
      s.submit (mode.run (statement.list Store.manager) (statement.listAsync (Store.manager.async κ)) callback)

def run : Session κ → List (Request κ) → List Report × Session κ
  | s, [] => ([], s)
  | s, r :: rs =>
    let (report, s) := s.step r
    let (reports, s) := s.run rs
    (report :: reports, s)

end Session

theorem Mode.run_eq {act : Action σ α} {submit : Callback κ α → Submission σ κ}
    (h : ∀ callback, submit callback = act.submit callback) (mode : Mode) (callback : Callback κ α) :
    mode.run act submit callback = act.submit callback := by
  cases mode with
  | atOnce => rfl
  | submitted => exact h callback

namespace Session

/-- One request does the same in either mode. -/
theorem step_inMode (mode : Mode) (s : Session κ) (r : Request κ) : s.step (r.inMode mode) = s.step r := by
  cases r with
  | execute _ q callback =>
    have h := fun c => Store.manager.async_execute (κ := κ) c q
    simp only [step, Request.inMode, Mode.run_eq h]
  | query _ d text naming callback =>
    have h := Dialect.runAsync_async (κ := κ) d text naming Store.manager
    simp only [step, Request.inMode, Mode.run_eq h]
  | list _ id callback =>
    have h := fun s : Statement => s.listAsync_async (κ := κ) Store.manager
    simp only [step, Request.inMode, Mode.run_eq (h _)]
  | _ => rfl

/-- A session runs the same in whatever modes its requests are made. -/
theorem run_inMode (mode : Mode) (s : Session κ) (requests : List (Request κ)) :
    s.run (requests.map (·.inMode mode)) = s.run requests := by
  induction requests generalizing s with
  | nil => rfl
  | cons r rs ih => simp only [List.map_cons, run, step_inMode, ih]

theorem run_congr (s : Session κ) {requests others : List (Request κ)}
    (h : requests.map (·.inMode .atOnce) = others.map (·.inMode .atOnce)) : s.run requests = s.run others := by
  rw [← run_inMode .atOnce s requests, h, run_inMode]

end Session

/-! ## Submissions refine runs -/

/-- What is submitted ends as the action does. With an answer the callback is called with
    it, once, and with an error nobody is called and nothing has changed. -/
def Delivers (act : Action σ α) (submit : Callback κ α → Submission σ κ) : Prop :=
  ∀ (s : σ) (k : κ) (callback : Callback κ α),
    (∀ a after, act s = (.ok a, after) → submit callback (s, k) = (.ok (), after, callback a k)) ∧
    (∀ e after, act s = (.error e, after) → after = s ∧ submit callback (s, k) = (.error e, s, k))

theorem Atomic.delivers {act : Action σ α} (ha : Atomic act) {submit : Callback κ α → Submission σ κ}
    (h : ∀ callback, submit callback = act.submit callback) : Delivers act submit := by
  intro s k callback
  constructor
  · intro a after hact
    rw [h, Action.submit, hact]
  · intro e after hact
    obtain rfl := ha s e after hact
    exact ⟨rfl, by rw [h, Action.submit, hact]⟩

/-- On the store a submitted query ends as the query run at once does, prepared or not,
    whatever is bound and asked for beside the text. A deletion answers no entities. So
    a session may make each of its requests in either mode. -/
theorem submission_refines_run (d : Dialect) (text : String) (naming : Naming) (s : Statement) :
    Delivers (d.run text naming Store.manager) (d.runAsync text naming (Store.manager.async κ)) ∧
    Delivers (s.list Store.manager) (s.listAsync (Store.manager.async κ)) ∧
    (∀ q store after es, d.read text = .ok q → q.operation = .delete →
      d.run text naming Store.manager store = (.ok es, after) → es = []) ∧
    (∀ store after es, s.query.operation = .delete → s.list Store.manager store = (.ok es, after) → es = []) ∧
    ∀ (session : Session κ) (requests others : List (Request κ)),
      requests.map (·.inMode .atOnce) = others.map (·.inMode .atOnce) → session.run requests = session.run others := by
  have hrun : Atomic (d.run text naming Store.manager) := atomic_of_resolved Store.execute_atomic
  have hlist : Atomic (s.list Store.manager) := atomic_of_resolved Store.execute_atomic
  exact ⟨hrun.delivers (d.runAsync_async text naming Store.manager),
    hlist.delivers (s.listAsync_async Store.manager),
    fun _ _ _ _ hq hdelete h => Dialect.run_delete hq hdelete h,
    fun _ _ _ hdelete h => Statement.list_delete hdelete h,
    fun session _ _ h => session.run_congr h⟩

theorem read_delete_a : (Dialect.ofFamily .keyValue).read "delete \"a\"" = .ok (.delete [.literal (.string "a")]) := by
  have hwritten : (QueryPhrase.delete ⟨.literal (.string "a"), []⟩).WrittenAs "delete \"a\"" :=
    QueryPhrase.writtenAs_of_tokens (by decide +kernel)
  exact Dialect.read_of_writtenAs hwritten rfl

/-- One entity is looked up, asked for with its key left open, and deleted, both ways. -/
theorem submission_refines_run_ada :
    let d := Dialect.ofFamily .keyValue
    let ada : Entity := ⟨"Person", [("name", .string "Ada")]⟩
    let store : Store := Store.empty.put (.string "a") ada
    let noting : Callback (List (List Entity)) (List Entity) := fun es log => log ++ [es]
    let lookUp : Statement := Statement.bound (.get [.param "id"]) .identity d.convert [("id", .string "a")]
    let remove : Statement := Statement.bound (.delete [.param "id"]) .identity d.convert [("id", .string "a")]
    let needed := QueryError.query (.preparationNeeded ["id"])
    let session : Session (List (List Entity)) := ⟨store, [], []⟩
    let requests (mode : Mode) : List (Request (List (List Entity))) :=
      [.prepare "s" d "get @id" .identity, .bind "s" "id" (.string "a"), .list mode "s" noting,
       .query .submitted d "delete \"a\"" .identity noting]
    lookUp.list Store.manager store = (.ok [ada], store) ∧
    lookUp.listAsync (Store.manager.async _) noting (store, []) = (.ok (), store, [[ada]]) ∧
    d.run "get @id" .identity Store.manager store = (.error needed, store) ∧
    d.runAsync "get @id" .identity (Store.manager.async _) noting (store, []) = (.error needed, store, []) ∧
    (∃ es after, d.run "delete \"a\"" .identity Store.manager store = (.ok es, after) ∧ es = []) ∧
    (∃ es after, remove.list Store.manager store = (.ok es, after) ∧ es = []) ∧
    session.run (requests .atOnce) = session.run (requests .submitted) := by
  intro d ada store noting lookUp remove needed session requests
  obtain ⟨hrun, hlist, -, -, hsession⟩ := submission_refines_run d "get @id" .identity lookUp
  obtain ⟨-, -, hdelete, hremove, -⟩ :=
    (submission_refines_run d "delete \"a\"" .identity remove : Delivers (κ := Unit) _ _ ∧ _)
  have hlookUp : lookUp.list Store.manager store = (.ok [ada], store) := rfl
  have hneeded : d.run "get @id" .identity Store.manager store = (.error needed, store) := by
    rw [Dialect.run, Dialect.resolve, read_get_id]
    rfl
  have hgone : d.run "delete \"a\"" .identity Store.manager store = (.ok [], store.delete [.string "a"]) := by
    rw [Dialect.run, Dialect.resolve, read_delete_a]
    rfl
  have hremoved : remove.list Store.manager store = (.ok [], store.delete [.string "a"]) := rfl
  exact ⟨hlookUp, (hlist store [] noting).1 _ _ hlookUp, hneeded, ((hrun store [] noting).2 _ _ hneeded).2,
    ⟨_, _, hgone, hdelete _ _ _ _ read_delete_a rfl hgone⟩, ⟨_, _, hremoved, hremove _ _ _ rfl hremoved⟩,
    hsession session (requests .atOnce) (requests .submitted) rfl⟩

end EntityQuery
