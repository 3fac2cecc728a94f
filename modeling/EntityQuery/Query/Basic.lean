/-
  EntityQuery.Query.Basic — the five queries, over any kind of operand: as parsed
  they hold operands, as run they hold values.

  `values` lists a query's operands in the order of the text, `substitute` replaces
  entity and field names and operands, the operands in that order, and `parameters`
  names what must be bound before a parsed query runs, each name once, in order of
  first appearance.
-/

import EntityQuery.Family
import EntityQuery.Query.Condition
import EntityQuery.Query.Operand

namespace EntityQuery

inductive Direction where
  | asc
  | desc
  deriving DecidableEq

structure SortKey where
  field : String
  direction : Direction
  deriving DecidableEq

def SortKey.rename (field : String → String) (s : SortKey) : SortKey := { s with field := field s.field }

/-- A field and what it is set to. -/
structure Assignment (V : Type) where
  field : String
  value : V

structure SelectQuery (V : Type) where
  entity : String
  /-- The fields wanted; none means all. -/
  fields : List String
  condition : Option (Condition V)
  sorts : List SortKey
  skip : Option Nat
  limit : Option Nat

structure UpdateQuery (V : Type) where
  entity : String
  set : List (Assignment V)
  condition : Option (Condition V)

structure InsertQuery (V : Type) where
  entity : String
  items : List (Assignment V)

inductive Query (V : Type) where
  | get (keys : List V)
  | delete (keys : List V)
  | select (q : SelectQuery V)
  | update (q : UpdateQuery V)
  | insert (q : InsertQuery V)

namespace Query

variable {V W : Type}

def operation : Query V → Operation
  | .get _ => .get
  | .delete _ => .delete
  | .select _ => .select
  | .update _ => .update
  | .insert _ => .insert

def conditionValues (c : Option (Condition V)) : List V := (c.map Condition.values).getD []

def values : Query V → List V
  | .get keys | .delete keys => keys
  | .select q => conditionValues q.condition
  | .update q => q.set.map (·.value) ++ conditionValues q.condition
  | .insert q => q.items.map (·.value)

/-! ## Substitution -/

variable {m : Type → Type} [Monad m]

/-- What replaces the names and operands of a query. Fields are renamed as fields of
    the entity that the query names. -/
structure Substitution (m : Type → Type) (V W : Type) where
  entity : String → String
  field : String → String → String
  value : V → m W

/-- Replaces each item, one after the other. -/
def substituteAll (value : V → m W) : List V → m (List W)
  | [] => pure []
  | v :: vs => do
    let w ← value v
    let ws ← substituteAll value vs
    pure (w :: ws)

def substituteAssignment (field : String → String) (value : V → m W) (a : Assignment V) : m (Assignment W) := do
  pure ⟨field a.field, ← value a.value⟩

def substituteCondition (field : String → String) (value : V → m W) :
    Option (Condition V) → m (Option (Condition W))
  | none => pure none
  | some c => do pure (some (← c.substitute field value))

/-- Keys belong to no entity. -/
def substitute (r : Substitution m V W) : Query V → m (Query W)
  | .get keys => do pure (.get (← substituteAll r.value keys))
  | .delete keys => do pure (.delete (← substituteAll r.value keys))
  | .select q => do
    let field := r.field q.entity
    let c ← substituteCondition field r.value q.condition
    pure (.select ⟨r.entity q.entity, q.fields.map field, c, q.sorts.map (·.rename field), q.skip, q.limit⟩)
  | .update q => do
    let field := r.field q.entity
    let set ← substituteAll (substituteAssignment field r.value) q.set
    let c ← substituteCondition field r.value q.condition
    pure (.update ⟨r.entity q.entity, set, c⟩)
  | .insert q => do
    let items ← substituteAll (substituteAssignment (r.field q.entity) r.value) q.items
    pure (.insert ⟨r.entity q.entity, items⟩)

/-! ## Parameters -/

/-- Keeps the first of equal names. -/
def distinct : List String → List String
  | [] => []
  | n :: ns => n :: (distinct ns).filter (· != n)

def parameters (q : Query Operand) : List String := distinct (q.values.flatMap Operand.params)

end Query

end EntityQuery
