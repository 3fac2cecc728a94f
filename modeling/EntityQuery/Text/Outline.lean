/-
  EntityQuery.Text.Outline — trees written over several lines: each part on a line of
  its own, four spaces further in than the whole, with a comma after it. A leaf
  stays on its line, and so does a list with nothing in it.
-/

namespace EntityQuery

inductive Outline where
  | leaf (text : String)
  /-- A name and what it wraps. -/
  | wrap (name : String) (items : List Outline)
  | record (name : String) (fields : List (String × Outline))
  | list (items : List Outline)

namespace Outline

def margin (depth : Nat) : String := String.ofList (List.replicate (4 * depth) ' ')

mutual

/-- Writes a tree whose first line has its margin already. -/
def writeAt (depth : Nat) : Outline → String
  | .leaf text => text
  | .wrap name items => name ++ "(\n" ++ writeItems (depth + 1) items ++ margin depth ++ ")"
  | .record name fields => name ++ " \x7b\n" ++ writeFields (depth + 1) fields ++ margin depth ++ "\x7d"
  | .list [] => "[]"
  | .list (x :: xs) => "[\n" ++ writeItems (depth + 1) (x :: xs) ++ margin depth ++ "]"

def writeItems (depth : Nat) : List Outline → String
  | [] => ""
  | x :: xs => margin depth ++ writeAt depth x ++ ",\n" ++ writeItems depth xs

def writeFields (depth : Nat) : List (String × Outline) → String
  | [] => ""
  | (name, x) :: xs => margin depth ++ name ++ ": " ++ writeAt depth x ++ ",\n" ++ writeFields depth xs

end

def write (o : Outline) : String := writeAt 0 o

end Outline

end EntityQuery
