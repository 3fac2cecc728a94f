/-
  EntityQuery.Storage.Manager — what a resolved query runs against: five operations
  on a state, each with an answer or an error and the state after it.

  An asynchronous manager takes a callback with every operation and says only
  whether it accepted it. What a callback does is a change of the caller's own
  state, so a manager may call it at any point of the operation, or never; one that
  runs at once (`Manager.async`) calls it exactly when the operation succeeds.

  A logged manager does what another one does and keeps the queries that reached it.
-/

import EntityQuery.Entity
import EntityQuery.Error
import EntityQuery.Query.Basic

namespace EntityQuery

/-- Something done to a state: an answer or an error, and the state after it. -/
abbrev Action (σ α : Type) := σ → Except QueryError α × σ

structure Manager (σ : Type) where
  /-- The entities under the keys, in the order of the keys. -/
  get : List Value → Action σ (List Entity)
  delete : List Value → Action σ Unit
  select : SelectQuery Value → Action σ (List Entity)
  /-- Answers the entities that were changed. -/
  update : UpdateQuery Value → Action σ (List Entity)
  /-- Answers the new entity. -/
  insert : InsertQuery Value → Action σ (List Entity)

namespace Manager

variable {σ : Type}

/-- Runs a query. A deletion answers no entities. -/
def execute (m : Manager σ) : Query Value → Action σ (List Entity)
  | .get keys => m.get keys
  | .delete keys => fun s =>
    let (r, s) := m.delete keys s
    (r.map fun _ => [], s)
  | .select q => m.select q
  | .update q => m.update q
  | .insert q => m.insert q

/-! ## The queries that reach a manager -/

def noted {α : Type} (q : Query Value) (act : Action σ α) : Action (List (Query Value) × σ) α := fun (log, s) =>
  let (r, s) := act s
  (r, log ++ [q], s)

def logged (m : Manager σ) : Manager (List (Query Value) × σ) where
  get keys := noted (.get keys) (m.get keys)
  delete keys := noted (.delete keys) (m.delete keys)
  select q := noted (.select q) (m.select q)
  update q := noted (.update q) (m.update q)
  insert q := noted (.insert q) (m.insert q)

/-- Answers every operation alike and changes nothing. -/
def answering (answer : Except QueryError (List Entity)) : Manager σ where
  get _ s := (answer, s)
  delete _ s := (answer.map fun _ => (), s)
  select _ s := (answer, s)
  update _ s := (answer, s)
  insert _ s := (answer, s)

end Manager

/-! ## Asynchronous managers -/

/-- What is to happen to a caller's state once there is an answer. -/
abbrev Callback (κ α : Type) := α → κ → κ

/-- The state of a manager and of its caller. -/
abbrev Submission (σ κ : Type) := Action (σ × κ) Unit

structure AsyncManager (σ κ : Type) where
  get : List Value → Callback κ (List Entity) → Submission σ κ
  delete : List Value → Callback κ Unit → Submission σ κ
  select : SelectQuery Value → Callback κ (List Entity) → Submission σ κ
  update : UpdateQuery Value → Callback κ (List Entity) → Submission σ κ
  insert : InsertQuery Value → Callback κ (List Entity) → Submission σ κ

/-- Submits a query. A deletion delivers no entities. -/
def AsyncManager.execute {σ κ : Type} (m : AsyncManager σ κ) (callback : Callback κ (List Entity)) :
    Query Value → Submission σ κ
  | .get keys => m.get keys callback
  | .delete keys => m.delete keys fun _ => callback []
  | .select q => m.select q callback
  | .update q => m.update q callback
  | .insert q => m.insert q callback

namespace AsyncManager

variable {σ κ : Type}

def noted (q : Query Value) (submit : Submission σ κ) : Submission (List (Query Value) × σ) κ := fun ((log, s), k) =>
  let (r, s, k) := submit (s, k)
  (r, (log ++ [q], s), k)

def logged (m : AsyncManager σ κ) : AsyncManager (List (Query Value) × σ) κ where
  get keys callback := noted (.get keys) (m.get keys callback)
  delete keys callback := noted (.delete keys) (m.delete keys callback)
  select q callback := noted (.select q) (m.select q callback)
  update q callback := noted (.update q) (m.update q callback)
  insert q callback := noted (.insert q) (m.insert q callback)

end AsyncManager

/-- Does something at once and calls back with the answer. -/
def Action.submit {σ κ α : Type} (act : Action σ α) (callback : Callback κ α) : Submission σ κ := fun (s, k) =>
  match act s with
  | (.ok a, s) => (.ok (), s, callback a k)
  | (.error e, s) => (.error e, s, k)

def Manager.async {σ : Type} (m : Manager σ) (κ : Type) : AsyncManager σ κ where
  get keys := Action.submit (m.get keys)
  delete keys := Action.submit (m.delete keys)
  select q := Action.submit (m.select q)
  update q := Action.submit (m.update q)
  insert q := Action.submit (m.insert q)

end EntityQuery
