/-
  EntityQuery.Query.Operand — the operands of a parsed query: literals as written,
  parameters, typed literals still to be converted, and lists of operands.
-/

import EntityQuery.Number.Layout

namespace EntityQuery

inductive Literal where
  | string (s : String)
  | integer (n : Int64)
  | float (x : Binary64)
  | boolean (b : Bool)
  | null
  /-- A JSON list or object, as its text without blanks. -/
  | json (text : String)
  deriving DecidableEq

def Literal.toText : Literal → String
  | string s => "\"" ++ s ++ "\""
  | integer n => toString n.toInt
  | float x => FloatLayout.message.write x
  | boolean b => if b then "true" else "false"
  | null => "null"
  | json text => text

inductive Operand where
  | literal (l : Literal)
  | param (name : String)
  /-- A literal to be made a value of a named type before the query runs. -/
  | convert (l : Literal) (typeName : String)
  | list (items : List Operand)

namespace Operand

mutual

/-- The parameters an operand names, in order, repetitions included. -/
def params : Operand → List String
  | .literal _ | .convert _ _ => []
  | .param name => [name]
  | .list items => itemParams items

def itemParams : List Operand → List String
  | [] => []
  | o :: os => params o ++ itemParams os

end

end Operand

end EntityQuery
