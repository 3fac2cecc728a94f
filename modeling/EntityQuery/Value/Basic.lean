/-
  EntityQuery.Value.Basic — the values entities hold and queries carry: scalars,
  lists, and embedded documents with named fields in the order of the names.

  Text (`toText`). Strings are quoted without escapes, a date and time has a space
  between its parts, lists and documents are written with a comma and a space.
-/

import EntityQuery.Number.Decimal
import EntityQuery.Number.Layout
import EntityQuery.Calendar.Date

namespace EntityQuery

inductive Value where
  | null
  | boolean (b : Bool)
  | integer (n : Int64)
  | float (x : Binary64)
  | decimal (d : Decimal)
  | string (s : String)
  | date (d : Date)
  | dateTime (t : DateTime)
  | array (items : List Value)
  | object (fields : List (String × Value))

namespace Value

def isNull : Value → Bool
  | .null => true
  | _ => false

/-- The name of a value's kind, as messages give it. -/
def kindName : Value → String
  | .null => "null"
  | .boolean _ => "boolean"
  | .integer _ => "integer"
  | .float _ => "float"
  | .decimal _ => "decimal"
  | .string _ => "string"
  | .date _ => "date"
  | .dateTime _ => "datetime"
  | .array _ => "array"
  | .object _ => "object"

def asInteger? : Value → Option Int64
  | .integer n => some n
  | _ => none

/-- The binary number nearest to a numeric value. -/
def asBinary64? : Value → Option Binary64
  | .integer n => some (.ofInt n.toInt)
  | .float x => some x
  | .decimal d => some d.toBinary64
  | _ => none

def asString? : Value → Option String
  | .string s => some s
  | _ => none

/-! ## Text -/

mutual

def toText : Value → String
  | .null => "null"
  | .boolean b => if b then "true" else "false"
  | .integer n => toString n.toInt
  | .float x => FloatLayout.message.write x
  | .decimal d => d.toText
  | .string s => "\"" ++ s ++ "\""
  | .date d => d.toText
  | .dateTime t => t.toText
  | .array items => "[" ++ itemsText items ++ "]"
  | .object fields => "\x7b" ++ fieldsText fields ++ "\x7d"

def itemsText : List Value → String
  | [] => ""
  | [v] => toText v
  | v :: vs => toText v ++ ", " ++ itemsText vs

def fieldsText : List (String × Value) → String
  | [] => ""
  | [(name, v)] => "\"" ++ name ++ "\": " ++ toText v
  | (name, v) :: fs => "\"" ++ name ++ "\": " ++ toText v ++ ", " ++ fieldsText fs

end

end Value

end EntityQuery
