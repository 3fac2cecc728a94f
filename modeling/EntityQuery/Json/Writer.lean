/-
  EntityQuery.Json.Writer — a JSON value as text: in one line without blanks
  (`compact`), or with one item a line and two spaces a level (`pretty`). In a
  string a quote, a backslash and the control characters are escaped, the common
  ones by a letter.
-/

import EntityQuery.Json.Basic

namespace EntityQuery.Json

def escapedChar (c : Char) : List Char :=
  if c == '"' then ['\\', '"']
  else if c == '\\' then ['\\', '\\']
  else if c == '\x08' then ['\\', 'b']
  else if c == '\t' then ['\\', 't']
  else if c == '\n' then ['\\', 'n']
  else if c == '\x0c' then ['\\', 'f']
  else if c == '\r' then ['\\', 'r']
  else if c.toNat < 0x20 then
    ['\\', 'u', '0', '0', Nat.digitChar (c.toNat / 16), Nat.digitChar (c.toNat % 16)]
  else [c]

def stringText (s : String) : List Char := '"' :: s.toList.flatMap escapedChar ++ ['"']

def floatText (x : Binary64) : List Char :=
  if x.isFinite then (FloatLayout.json.write x).toList else ['n', 'u', 'l', 'l']

/-! ## One line -/

mutual

def compact : Json → List Char
  | .null => ['n', 'u', 'l', 'l']
  | .bool true => ['t', 'r', 'u', 'e']
  | .bool false => ['f', 'a', 'l', 's', 'e']
  | .whole n => (toString n).toList
  | .float x => floatText x
  | .string s => stringText s
  | .array items => '[' :: compactItems items ++ [']']
  | .object fields => '\x7b' :: compactFields fields ++ ['\x7d']

def compactItems : List Json → List Char
  | [] => []
  | [v] => compact v
  | v :: vs => compact v ++ ',' :: compactItems vs

def compactFields : List (String × Json) → List Char
  | [] => []
  | [(name, v)] => stringText name ++ ':' :: compact v
  | (name, v) :: fs => stringText name ++ ':' :: compact v ++ ',' :: compactFields fs

end

def toText (v : Json) : String := String.ofList (compact v)

/-! ## One item a line -/

/-- A new line and the blanks of a level. -/
def newLine (level : Nat) : List Char := '\n' :: List.replicate (2 * level) ' '

mutual

def pretty (level : Nat) : Json → List Char
  | .array [] => ['[', ']']
  | .array items => '[' :: prettyItems (level + 1) items ++ newLine level ++ [']']
  | .object [] => ['\x7b', '\x7d']
  | .object fields => '\x7b' :: prettyFields (level + 1) fields ++ newLine level ++ ['\x7d']
  | .null => ['n', 'u', 'l', 'l']
  | .bool true => ['t', 'r', 'u', 'e']
  | .bool false => ['f', 'a', 'l', 's', 'e']
  | .whole n => (toString n).toList
  | .float x => floatText x
  | .string s => stringText s

def prettyItems (level : Nat) : List Json → List Char
  | [] => []
  | [v] => newLine level ++ pretty level v
  | v :: vs => newLine level ++ pretty level v ++ ',' :: prettyItems level vs

def prettyFields (level : Nat) : List (String × Json) → List Char
  | [] => []
  | [(name, v)] => newLine level ++ stringText name ++ ':' :: ' ' :: pretty level v
  | (name, v) :: fs => newLine level ++ stringText name ++ ':' :: ' ' :: pretty level v ++ ',' :: prettyFields level fs

end

def toPrettyText (v : Json) : String := String.ofList (pretty 0 v)

end EntityQuery.Json
