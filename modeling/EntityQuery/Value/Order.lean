/-
  EntityQuery.Value.Order — how values compare.

  Integers, floats and decimals compare with each other as numbers; a date compares
  with a date and time as its midnight; every other value compares only with its
  own kind, lists and documents with nothing. `compare?` is none where two values
  do not compare.

  `looseEq` is the equality of keys and conditions: it goes by `compare?`, lists
  item by item, and documents by `same`, under which numbers of different kinds
  differ.
-/

import EntityQuery.Value.Basic

namespace EntityQuery.Value

/-- A number as a decimal; a float with no decimal near it has none. -/
def asDecimal? : Value → Option Decimal
  | .integer n => some (.ofInt64 n)
  | .float x => Decimal.ofBinary64? x
  | .decimal d => some d
  | _ => none

def compareNumbers? (a b : Value) : Option Ordering :=
  match a.asDecimal?, b.asDecimal? with
  | some x, some y => some (x.compare y)
  | _, _ => none

def compare? : Value → Value → Option Ordering
  | .integer a, .integer b => some (Ord.compare a.toInt b.toInt)
  | .float a, .float b => a.compare? b
  | .string a, .string b => some (Ord.compare a b)
  | .boolean a, .boolean b => some (Ord.compare a b)
  | .date a, .date b => some (a.compare b)
  | .dateTime a, .dateTime b => some (a.compare b)
  | .date a, .dateTime b => some ((DateTime.ofDate a).compare b)
  | .dateTime a, .date b => some (a.compare (DateTime.ofDate b))
  | .null, .null => some .eq
  | a, b => compareNumbers? a b

/-! ## Equality -/

mutual

/-- Equality within a kind: a NaN differs from itself, and decimals are equal as
    numbers. -/
def same : Value → Value → Bool
  | .null, .null => true
  | .boolean a, .boolean b => a == b
  | .integer a, .integer b => a == b
  | .float a, .float b => a.compare? b == some .eq
  | .decimal a, .decimal b => a.compare b == .eq
  | .string a, .string b => a == b
  | .date a, .date b => a == b
  | .dateTime a, .dateTime b => a == b
  | .array xs, .array ys => sameItems xs ys
  | .object fs, .object gs => sameFields fs gs
  | _, _ => false

def sameItems : List Value → List Value → Bool
  | [], [] => true
  | x :: xs, y :: ys => same x y && sameItems xs ys
  | _, _ => false

def sameFields : List (String × Value) → List (String × Value) → Bool
  | [], [] => true
  | (n, x) :: fs, (m, y) :: gs => n == m && same x y && sameFields fs gs
  | _, _ => false

end

mutual

def looseEq : Value → Value → Bool
  | .array xs, .array ys => looseEqItems xs ys
  | .object fs, .object gs => sameFields fs gs
  | a, b => compare? a b == some .eq

def looseEqItems : List Value → List Value → Bool
  | [], [] => true
  | x :: xs, y :: ys => looseEq x y && looseEqItems xs ys
  | _, _ => false

end

end EntityQuery.Value
