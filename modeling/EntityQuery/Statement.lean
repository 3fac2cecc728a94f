/-
  EntityQuery.Statement — a parsed query that waits for its bindings, and may be run
  over and over.

  Every run resolves the query anew, with what is bound and asked for at that moment,
  and hands the result to a manager. A query that does not resolve reaches no
  manager.
-/

import EntityQuery.Bindings
import EntityQuery.Paging
import EntityQuery.Storage.Manager

namespace EntityQuery

structure Statement where
  query : Query Operand
  bindings : Bindings
  paging : Paging
  naming : Naming
  convert : Converter

namespace Statement

def ofQuery (q : Query Operand) (naming : Naming) (convert : Converter) : Statement :=
  ⟨q, .ofQuery q, .empty, naming, convert⟩

def parameters (s : Statement) : List String := s.bindings.declared

def state (s : Statement) : BindingState := s.bindings.state

def bind (s : Statement) (name : String) (value : Value) : Except QueryError Statement :=
  (s.bindings.bind name value).map fun b => { s with bindings := b }

/-- Replaces what was asked for beside the text; it counts for a select alone. -/
def withPaging (s : Statement) (p : Paging) : Statement := { s with paging := p }

/-- Applies the paging. Its sort fields belong to the entity that the text names. -/
def paged (s : Statement) (resolved : Query Value) : Query Value :=
  match s.query, resolved with
  | .select logical, .select q => .select (s.paging.apply (s.naming.field logical.entity) q)
  | _, q => q

def resolve (s : Statement) : Except QueryError (Query Value) :=
  (s.bindings.resolve s.query s.naming s.convert).map s.paged

/-! ## Running -/

variable {σ κ : Type}

def list (s : Statement) (m : Manager σ) : Action σ (List Entity) := fun state =>
  match s.resolve with
  | .ok q => m.execute q state
  | .error e => (.error e, state)

/-- The one entity of an answer, or none. -/
def single? : List Entity → Except QueryError (Option Entity)
  | [] => .ok none
  | [e] => .ok (some e)
  | es => .error (.nonUniqueResult es.length)

def single (s : Statement) (m : Manager σ) : Action σ (Option Entity) := fun state =>
  let (r, state) := s.list m state
  (r.bind single?, state)

def listAsync (s : Statement) (m : AsyncManager σ κ) (callback : Callback κ (List Entity)) : Submission σ κ :=
  fun states =>
    match s.resolve with
    | .ok q => m.execute callback q states
    | .error e => (.error e, states)

end Statement

end EntityQuery
