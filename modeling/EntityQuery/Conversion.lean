/-
  EntityQuery.Conversion — making a value one of a named type.

  A type goes by several names, and only the last segment of a name counts: a
  qualified name stands for the type that its short form stands for. What cannot
  become the type is an error that shows the value and the name as written.

  Whole types are exact. A value converts when it denotes a whole number
  (`Value.whole?`) that lies in the type's range, whatever kind of value it is;
  nothing is cut off. Texts are trimmed, but not on the way to a boolean.
-/

import EntityQuery.Calendar.Reader
import EntityQuery.Error
import EntityQuery.Value.Basic

namespace EntityQuery

/-- Makes a value one of the type that a name stands for. -/
abbrev Converter (m : Type → Type := Except QueryError) := Value → String → m Value

inductive TargetType where
  | string
  | boolean
  | long
  | integer
  | short
  | byte
  | double
  | decimal
  | date
  | dateTime
  deriving DecidableEq

/-! ## Whole numbers -/

/-- The whole number that a value denotes. -/
def Value.whole? : Value → Option Int
  | .integer n => some n.toInt
  | .float x => x.toInt?
  | .decimal d => d.toInt?
  | .string s => Numeral.readInt? (Text.trim s.toList)
  | _ => none

/-- A value as an integer, when it denotes a whole number from -half up to half,
    half itself left out. -/
def Value.toWhole? (half : Int) (v : Value) : Option Value :=
  v.whole?.bind fun n => if -half ≤ n ∧ n < half then some (.integer (Int64.ofInt n)) else none

/-! ## The other types -/

namespace Value

def toString? : Value → Option Value
  | .string s => some (.string s)
  | v => some (.string v.toText)

/-- A number is true unless it is zero; a text is one of the two words in any ASCII case. -/
def toBoolean? : Value → Option Value
  | .boolean b => some (.boolean b)
  | .string s =>
    if s.toLower == "true" then some (.boolean true)
    else if s.toLower == "false" then some (.boolean false)
    else none
  | .integer n => some (.boolean (n != 0))
  | _ => none

def toDouble? : Value → Option Value
  | .string s => (Numeral.readBinary64? (Text.trim s.toList)).map .float
  | v => v.asBinary64?.map .float

def toDecimal? : Value → Option Value
  | .integer n => some (.decimal (.ofInt64 n))
  | .float x => (Decimal.ofBinary64? x).map .decimal
  | .decimal d => some (.decimal d)
  | .string s => (Decimal.read? (Text.trim s.toList)).map .decimal
  | _ => none

def toDate? : Value → Option Value
  | .date d => some (.date d)
  | .dateTime t => some (.date t.date)
  | .string s => (Calendar.readDate? (Text.trim s.toList)).map .date
  | _ => none

def toDateTime? : Value → Option Value
  | .dateTime t => some (.dateTime t)
  | .date d => some (.dateTime (.ofDate d))
  | .string s => (Calendar.readDateTime? (Text.trim s.toList)).map .dateTime
  | _ => none

end Value

/-! ## By name -/

namespace TargetType

def names : List (String × TargetType) :=
  [("String", string), ("CharSequence", string), ("Boolean", boolean), ("boolean", boolean), ("Long", long),
   ("long", long), ("Integer", integer), ("int", integer), ("Short", short), ("short", short), ("Byte", byte),
   ("byte", byte), ("Double", double), ("double", double), ("Float", double), ("float", double),
   ("BigDecimal", decimal), ("BigInteger", decimal), ("Number", decimal), ("LocalDate", date), ("Date", date),
   ("LocalDateTime", dateTime)]

/-- The last segment of a name. -/
def simpleName (name : String) : String := String.ofList (name.toList.reverse.takeWhile (· != '.')).reverse

def ofName? (name : String) : Option TargetType := names.lookup (simpleName name)

def convert? : TargetType → Value → Option Value
  | string => Value.toString?
  | boolean => Value.toBoolean?
  | long => Value.toWhole? 0x8000000000000000
  | integer => Value.toWhole? 0x80000000
  | short => Value.toWhole? 0x8000
  | byte => Value.toWhole? 0x80
  | double => Value.toDouble?
  | decimal => Value.toDecimal?
  | date => Value.toDate?
  | dateTime => Value.toDateTime?

end TargetType

def Converter.standard : Converter := fun v name =>
  match (TargetType.ofName? name).bind (·.convert? v) with
  | some w => .ok w
  | none => .error (.conversion v.toText name)

end EntityQuery
