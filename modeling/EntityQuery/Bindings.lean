/-
  EntityQuery.Bindings — the parameters a query declares, the values bound to them,
  and the query that comes out once all of them are bound.

  Only a declared name can be bound; binding it again replaces its value. A query
  resolves when every declared parameter is bound and every typed literal converts.
  Then each operand has become a value, and the names are those of the database.
-/

import EntityQuery.Conversion
import EntityQuery.Naming.Observer
import EntityQuery.Query.Basic

namespace EntityQuery

inductive BindingState where
  /-- Nothing is bound yet. -/
  | created
  | partiallyBound
  | fullyBound
  deriving DecidableEq

def BindingState.name : BindingState → String
  | created => "created"
  | partiallyBound => "partially_bound"
  | fullyBound => "fully_bound"

structure Bindings where
  /-- The names in order of first appearance. -/
  declared : List String
  bound : List (String × Value)

namespace Bindings

def ofQuery (q : Query Operand) : Bindings := ⟨q.parameters, []⟩

def isDeclared (b : Bindings) (name : String) : Bool := b.declared.contains name

def get? (b : Bindings) (name : String) : Option Value := b.bound.lookup name

def bind (b : Bindings) (name : String) (value : Value) : Except QueryError Bindings :=
  if b.isDeclared name then .ok { b with bound := (name, value) :: b.bound.filter (·.1 != name) }
  else .error (.illegalArgument (.undeclaredParameter name b.declared))

def unbound (b : Bindings) : List String := b.declared.filter fun name => (b.get? name).isNone

def isAllBound (b : Bindings) : Bool := b.unbound.isEmpty

def state (b : Bindings) : BindingState :=
  if b.isAllBound then .fullyBound else if b.bound.isEmpty then .created else .partiallyBound

end Bindings

/-! ## Resolution -/

/-- The value that a literal is; JSON stays text. -/
def Literal.toValue : Literal → Value
  | string s => .string s
  | integer n => .integer n
  | float x => .float x
  | boolean b => .boolean b
  | null => .null
  | json text => .string text

namespace Bindings

variable {m : Type → Type} [Monad m] [MonadExcept QueryError m]

mutual

def resolveOperand (b : Bindings) (convert : Converter m) : Operand → m Value
  | .literal l => pure l.toValue
  | .param name =>
    match b.get? name with
    | some v => pure v
    | none => throw (.query (.parameterNotBound name))
  | .convert l typeName => convert l.toValue typeName
  | .list items => do pure (.array (← resolveItems b convert items))

def resolveItems (b : Bindings) (convert : Converter m) : List Operand → m (List Value)
  | [] => pure []
  | o :: os => do
    let v ← resolveOperand b convert o
    let vs ← resolveItems b convert os
    pure (v :: vs)

end

def substitution (b : Bindings) (naming : Naming) (convert : Converter m) : Query.Substitution m Operand Value :=
  ⟨naming.entity, naming.field, b.resolveOperand convert⟩

def resolve (b : Bindings) (q : Query Operand) (naming : Naming) (convert : Converter m) : m (Query Value) :=
  if b.isAllBound then q.substitute (b.substitution naming convert) else throw (.query (.parametersLeft b.unbound))

end Bindings

end EntityQuery
