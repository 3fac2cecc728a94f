/-
  EntityQuery.Json.Basic — JSON values, and what can be wrong with a JSON text.

  An object keeps its fields in first-seen order, each name once; a number is whole
  when it is written so and fits in 64 bits, signed or not, and binary floating
  point otherwise.

  A fault names its cause and where it was noticed: so many bytes into what was
  left of the text. `Fault.place` turns that into a line and a column of the whole
  text; columns count bytes from the start of the line.
-/

import EntityQuery.Number.Layout
import EntityQuery.Text.Quoted

namespace EntityQuery

inductive Json where
  | null
  | bool (b : Bool)
  | whole (n : Int)
  | float (x : Binary64)
  | string (s : String)
  | array (items : List Json)
  | object (fields : List (String × Json))

namespace Json

/-- Sets a field: in place if the name is there, at the end if not. -/
def setField (fields : List (String × Json)) (name : String) (value : Json) : List (String × Json) :=
  if fields.any (·.1 == name) then fields.map fun f => if f.1 == name then (name, value) else f
  else fields ++ [(name, value)]

def field? (fields : List (String × Json)) (name : String) : Option Json :=
  (fields.find? (·.1 == name)).map (·.2)

/-! ## Faults -/

inductive Cause where
  | endInList
  | endInObject
  | endInString
  | endInValue
  | expectedColon
  | expectedListEnd
  | expectedObjectEnd
  | expectedWord
  | expectedValue
  | invalidEscape
  | invalidNumber
  | numberOutOfRange
  | controlCharacter
  | keyNotString
  | loneSurrogate
  | trailingComma
  | trailingCharacters
  | endOfEscape
  | nestedTooDeep
  /-- A value of one kind where another is wanted. -/
  | wrongType (found wanted : String)
  /-- A list too short to hold what is wanted. -/
  | wrongLength (length : Nat) (wanted : String)
  | missingField (name : String)
  | duplicateField (name : String)
  | unknownVariant (name : String) (known : List String)
  deriving DecidableEq

/-- A name between backquotes. -/
def marked (name : String) : String := "`" ++ name ++ "`"

def Cause.message : Cause → String
  | endInList => "EOF while parsing a list"
  | endInObject => "EOF while parsing an object"
  | endInString => "EOF while parsing a string"
  | endInValue => "EOF while parsing a value"
  | expectedColon => "expected `:`"
  | expectedListEnd => "expected `,` or `]`"
  | expectedObjectEnd => "expected `,` or `\x7d`"
  | expectedWord => "expected ident"
  | expectedValue => "expected value"
  | invalidEscape => "invalid escape"
  | invalidNumber => "invalid number"
  | numberOutOfRange => "number out of range"
  | controlCharacter => "control character (\\u0000-\\u001F) found while parsing a string"
  | keyNotString => "key must be a string"
  | loneSurrogate => "lone leading surrogate in hex escape"
  | trailingComma => "trailing comma"
  | trailingCharacters => "trailing characters"
  | endOfEscape => "unexpected end of hex escape"
  | nestedTooDeep => "recursion limit exceeded"
  | wrongType found wanted => "invalid type: " ++ found ++ ", expected " ++ wanted
  | wrongLength n wanted => "invalid length " ++ toString n ++ ", expected " ++ wanted
  | missingField name => "missing field " ++ marked name
  | duplicateField name => "duplicate field " ++ marked name
  | unknownVariant name known =>
    "unknown variant " ++ marked name ++ ", expected one of " ++ ", ".intercalate (known.map marked)

/-- Noticed `bytes` bytes into `rest`, or at its end if it is shorter. -/
structure Fault where
  cause : Cause
  rest : List Char
  bytes : Nat

def byteLength (cs : List Char) : Nat := cs.foldl (fun n c => n + c.utf8Size) 0

/-- Line and column after the first `bytes` bytes of a text that starts at the given
    place; the cut may fall inside a character. -/
def placeAfter : Nat → Nat → Nat → List Char → Nat × Nat
  | _, line, column, [] => (line, column)
  | bytes, line, column, c :: cs =>
    if bytes = 0 then (line, column)
    else if c = '\n' then placeAfter (bytes - 1) (line + 1) 0 cs
    else placeAfter (bytes - c.utf8Size) line (column + min bytes c.utf8Size) cs

/-- Where a fault of a text lies: its line from 1 and the bytes before it on the line. -/
def Fault.place (f : Fault) (text : List Char) : Nat × Nat :=
  placeAfter (byteLength text - byteLength f.rest + f.bytes) 1 0 text

def Fault.message (f : Fault) (text : List Char) : String :=
  let (line, column) := f.place text
  f.cause.message ++ " at line " ++ toString line ++ " column " ++ toString column

end Json

end EntityQuery
