/-
  EntityQuery.Json.Reader — reading a JSON text into a value.

  Lists and objects may lie 127 deep; the bracket that would open one more is a
  fault. A field that comes twice keeps its first place and its last value. Nothing
  but blanks may follow the value.
-/

import EntityQuery.Json.Lexeme

namespace EntityQuery.Json

/-- How deep lists and objects may lie in each other. -/
def maxNesting : Nat := 127

/-- Reads the items of a list up to its closing bracket; `fuel` bounds their number. -/
def listTail (item : List Char → Reading α) : Nat → Bool → List α → List Char → Reading (List α)
  | 0, _, _, _ => faultAt .endInList [] 0
  | fuel + 1, first, read, cs =>
    let next (cs : List Char) : Reading (List α) :=
      (item cs).bind fun (v, rest) => listTail item fuel false (v :: read) rest
    match skipSpace cs with
    | [] => faultAt .endInList [] 0
    | c :: r =>
      if c == ']' then .ok (read.reverse, r)
      else if first then next (c :: r)
      else if c == ',' then
        match skipSpace r with
        | [] => faultAt .endInValue [] 0
        | d :: q => if d == ']' then faultAt .trailingComma (d :: q) 1 else next (d :: q)
      else faultAt .expectedListEnd (c :: r) 1

/-- Reads the colon after a field's name. -/
def colon (cs : List Char) : Reading Unit :=
  match skipSpace cs with
  | [] => faultAt .endInObject [] 0
  | c :: r => if c == ':' then .ok ((), r) else faultAt .expectedColon (c :: r) 1

/-- Reads the fields of an object up to its closing brace; `fuel` bounds their number. -/
def objectTail (item : List Char → Reading Json) :
    Nat → Bool → List (String × Json) → List Char → Reading (List (String × Json))
  | 0, _, _, _ => faultAt .endInObject [] 0
  | fuel + 1, first, read, cs =>
    let next (cs : List Char) : Reading (List (String × Json)) :=
      (stringTail [] cs).bind fun (name, rest) =>
        (colon rest).bind fun (_, rest) =>
          (item rest).bind fun (v, rest) => objectTail item fuel false (setField read name v) rest
    match skipSpace cs with
    | [] => faultAt .endInObject [] 0
    | c :: r =>
      if c == '\x7d' then .ok (read, r)
      else if first then if c == '"' then next r else faultAt .keyNotString (c :: r) 1
      else if c == ',' then
        match skipSpace r with
        | [] => faultAt .endInValue [] 0
        | d :: q =>
          if d == '"' then next q
          else if d == '\x7d' then faultAt .trailingComma (d :: q) 1
          else faultAt .keyNotString (d :: q) 1
      else faultAt .expectedObjectEnd (c :: r) 1

/-- Reads a value; `nested?` reads those inside a list or an object, if one may open. -/
def valueWith (nested? : Option (List Char → Reading Json)) (cs : List Char) : Reading Json :=
  match skipSpace cs with
  | [] => faultAt .endInValue [] 0
  | c :: r =>
    if c == 'n' then word .null ['u', 'l', 'l'] r
    else if c == 't' then word (.bool true) ['r', 'u', 'e'] r
    else if c == 'f' then word (.bool false) ['a', 'l', 's', 'e'] r
    else if c == '-' then (number true r).map fun (n, rest) => (n.toJson, rest)
    else if c.isDigit then (number false (c :: r)).map fun (n, rest) => (n.toJson, rest)
    else if c == '"' then (stringTail [] r).map fun (s, rest) => (.string s, rest)
    else if c == '[' || c == '\x7b' then
      match nested? with
      | none => faultAt .nestedTooDeep (c :: r) 1
      | some item =>
        if c == '[' then (listTail item (r.length + 1) true [] r).map fun (vs, rest) => (.array vs, rest)
        else (objectTail item (r.length + 1) true [] r).map fun (fs, rest) => (.object fs, rest)
    else faultAt .expectedValue (c :: r) 1

/-- Reads a value in which `levels` lists or objects may lie in each other. -/
def value : Nat → List Char → Reading Json
  | 0 => valueWith none
  | levels + 1 => valueWith (some (value levels))

/-- Wants nothing but blanks in what is left. -/
def ended (a : α) (cs : List Char) : Except Fault α :=
  match skipSpace cs with
  | [] => .ok a
  | r => .error ⟨.trailingCharacters, r, 1⟩

def parse (text : List Char) : Except Fault Json :=
  (value maxNesting text).bind fun (v, rest) => ended v rest

/-- Reads a text, a fault put into words. -/
def parseText (text : String) : Except String Json := (parse text.toList).mapError (·.message text.toList)

end EntityQuery.Json
