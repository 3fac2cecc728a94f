/-
  EntityQuery.Dialect — the queries of one family of databases.

  A dialect reads a text, refuses the operations that its family does not have, and
  runs the query at once or prepares it. A query with parameters runs only when it
  has been prepared.
-/

import EntityQuery.Query.Parser
import EntityQuery.Statement

namespace EntityQuery

structure Dialect where
  family : Family
  convert : Converter

namespace Dialect

def ofFamily (family : Family) : Dialect := ⟨family, .standard⟩

def read (d : Dialect) (text : String) : Except QueryError (Query Operand) :=
  if (Text.trim text.toList).isEmpty then .error (.missingArgument "query")
  else
    (Query.parse text).bind fun q =>
      if d.family.allows q.operation then .ok q else .error (.query (.unsupported q.operation d.family))

/-- Reads and resolves a query without parameters. -/
def resolve (d : Dialect) (text : String) (naming : Naming) : Except QueryError (Query Value) :=
  (d.read text).bind fun q =>
    if q.parameters.isEmpty then (Bindings.ofQuery q).resolve q naming d.convert
    else .error (.query (.preparationNeeded q.parameters))

variable {σ κ : Type}

def run (d : Dialect) (text : String) (naming : Naming) (m : Manager σ) : Action σ (List Entity) := fun state =>
  match d.resolve text naming with
  | .ok q => m.execute q state
  | .error e => (.error e, state)

def runAsync (d : Dialect) (text : String) (naming : Naming) (m : AsyncManager σ κ)
    (callback : Callback κ (List Entity)) : Submission σ κ := fun states =>
  match d.resolve text naming with
  | .ok q => m.execute callback q states
  | .error e => (.error e, states)

def prepare (d : Dialect) (text : String) (naming : Naming) : Except QueryError Statement :=
  (d.read text).map fun q => .ofQuery q naming d.convert

end Dialect

/-! ## Dialects by family -/

structure Dialects where
  registered : List Dialect

namespace Dialects

def empty : Dialects := ⟨[]⟩

def register (ds : Dialects) (d : Dialect) : Dialects := ⟨d :: ds.registered.filter (·.family != d.family)⟩

/-- A dialect with the standard conversions for each family. -/
def all : Dialects := Family.all.foldl (fun ds f => ds.register (.ofFamily f)) empty

def get (ds : Dialects) (family : Family) : Except QueryError Dialect :=
  match ds.registered.find? (·.family == family) with
  | some d => .ok d
  | none => .error (.query (.noParser family))

end Dialects

end EntityQuery
