/-
  EntityQuery.Number.Shortest — the fewest decimal digits that read back to a
  binary magnitude.

  The reals that round to a magnitude form an interval, ends included exactly when
  the significand is even. For one digit, two digits and so on, the two neighbours
  of the value on that decimal grid are tested against it (`readsBack`); the first
  grid with a hit wins, and of two hits the nearer. Seventeen digits always do;
  should no grid answer, the exact value is given, never a guess.
-/

import EntityQuery.Number.Binary64

namespace EntityQuery

/-- Digits and the power of ten of the last one. -/
structure Scientific where
  digits : Nat
  exponent : Int
  deriving DecidableEq

namespace Scientific

/-- Moves trailing zeros of the digits into the exponent; at most `fuel` of them. -/
def strip : Nat → Scientific → Scientific
  | 0, d => d
  | fuel + 1, d => if d.digits ≠ 0 ∧ d.digits % 10 = 0 then strip fuel ⟨d.digits / 10, d.exponent + 1⟩ else d

def length (n : Nat) : Nat := (Nat.toDigits 10 n).length

end Scientific

namespace Binary64

/-- Which of two equally near candidates is taken. -/
inductive Tie where
  | toEven
  | up
  deriving DecidableEq

/-- Compares digits · 10 ^ e with n · 2 ^ q. -/
def compareScaled (digits : Nat) (e : Int) (n : Nat) (q : Int) : Ordering :=
  compare (digits * Nat.pow 10 e.toNat * Nat.pow 2 (-q).toNat) (n * Nat.pow 2 q.toNat * Nat.pow 10 (-e).toNat)

/-- Whether a decimal lies among the reals that round to the magnitude of a rank.
    Just above a power of two the neighbour below is half as far as the one above. -/
def readsBack (rank : Nat) (d : Scientific) : Bool :=
  let m := significand rank
  let q := exponent rank - 2
  let low := if m = hiddenBit ∧ 2 * hiddenBit ≤ rank then 4 * m - 1 else 4 * m - 2
  let cl := compareScaled d.digits d.exponent low q
  let ch := compareScaled d.digits d.exponent (4 * m + 2) q
  (cl == .gt || (m % 2 == 0 && cl == .eq)) && (ch == .lt || (m % 2 == 0 && ch == .eq))

/-- The least k with value < 10 ^ k, of a positive quotient. -/
def decimalScale (num den : Nat) : Int :=
  if den ≤ num then Scientific.length (num / den)
  else
    let t := Scientific.length (den / num)
    if num * Nat.pow 10 (t - 1) = den then 2 - (t : Int) else 1 - (t : Int)

/-- The better of the value's two neighbours on the grid of 10 ^ e, if one reads back. -/
def onGrid? (tie : Tie) (rank : Nat) (e : Int) : Option Scientific :=
  let (num, den) := ratio rank
  let n := num * Nat.pow 10 (-e).toNat
  let d := den * Nat.pow 10 e.toNat
  let below : Scientific := ⟨n / d, e⟩
  let above : Scientific := ⟨n / d + 1, e⟩
  match readsBack rank below, readsBack rank above with
  | false, false => none
  | true, false => some below
  | false, true => some above
  | true, true =>
    match compare (2 * (n % d)) d with
    | .lt => some below
    | .gt => some above
    | .eq =>
      match tie with
      | .up => some above
      | .toEven => if n / d % 2 = 0 then some below else some above

/-- The shortest decimal of a positive magnitude. -/
def shortest (tie : Tie) (rank : Nat) : Scientific :=
  let (num, den) := ratio rank
  let k := decimalScale num den
  let found := (List.range 17).findSome? fun (i : Nat) => onGrid? tie rank (k - (i + 1))
  (found.getD ⟨num * Nat.pow 5 (Nat.log2 den), -(Nat.log2 den : Int)⟩).strip 800

end Binary64

end EntityQuery
