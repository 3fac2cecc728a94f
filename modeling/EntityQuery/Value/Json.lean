/-
  EntityQuery.Value.Json — values from JSON and back.

  From JSON (`ofJson`) a whole number that fits in 64 signed bits is an integer,
  any other number a float, and an object's fields are put in the order of their
  names. To JSON (`toJson`) a decimal becomes the binary number nearest to it, a
  date and a time their text, to whole seconds, and what is no number null.
-/

import EntityQuery.Json.Basic
import EntityQuery.Entity

namespace EntityQuery.Value

def ofWhole (n : Int) : Value :=
  match Numeral.int64? n with
  | some i => .integer i
  | none => .float (.ofInt n)

mutual

def ofJson : Json → Value
  | .null => .null
  | .bool b => .boolean b
  | .whole n => ofWhole n
  | .float x => .float x
  | .string s => .string s
  | .array items => .array (ofJsonItems items)
  | .object fields => .object (Fields.ofList (ofJsonFields fields))

def ofJsonItems : List Json → List Value
  | [] => []
  | v :: vs => ofJson v :: ofJsonItems vs

def ofJsonFields : List (String × Json) → List (String × Value)
  | [] => []
  | (name, v) :: fs => (name, ofJson v) :: ofJsonFields fs

end

def floatToJson (x : Binary64) : Json := if x.isFinite then .float x else .null

mutual

def toJson : Value → Json
  | .null => .null
  | .boolean b => .bool b
  | .integer n => .whole n.toInt
  | .float x => floatToJson x
  | .decimal d => .float d.toBinary64
  | .string s => .string s
  | .date d => .string d.toText
  | .dateTime t => .string t.wholeSecondText
  | .array items => .array (toJsonItems items)
  | .object fields => .object (toJsonFields fields)

def toJsonItems : List Value → List Json
  | [] => []
  | v :: vs => toJson v :: toJsonItems vs

def toJsonFields : List (String × Value) → List (String × Json)
  | [] => []
  | (name, v) :: fs => (name, toJson v) :: toJsonFields fs

end

end EntityQuery.Value

namespace EntityQuery.Entity

/-- An entity as the object of its fields. -/
def toJson (e : Entity) : Json := .object (Value.toJsonFields e.fields)

end EntityQuery.Entity
