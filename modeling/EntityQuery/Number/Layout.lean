/-
  EntityQuery.Number.Layout — how a binary number is written. The digits are the
  shortest that read back; a record says where positional notation ends and how
  the rest looks. Three records are used: in messages and values (`message`), in
  outlines of queries (`outline`) and in JSON (`json`).
-/

import EntityQuery.Number.Shortest

namespace EntityQuery

structure FloatLayout where
  /-- Whether a number whose leading digit stands for 10 ^ e is written positionally. -/
  positional : Int → Bool
  /-- A whole number keeps a point and a zero. -/
  pointZero : Bool
  /-- A positive exponent carries its sign. -/
  exponentPlus : Bool
  tie : Binary64.Tie

namespace FloatLayout

/-- Always positional, a whole number bare, ties up: 1, 0.1, 100000000000000000000. -/
def message : FloatLayout := ⟨fun _ => true, false, false, .up⟩

/-- Positional from 10 ^ -4 up to 10 ^ 16, a whole number with a point: 1.0, 1e20, 1e-8. -/
def outline : FloatLayout := ⟨fun e => -4 ≤ e && e < 16, true, false, .up⟩

/-- Positional from 10 ^ -5 up to 10 ^ 16, ties to even: 1.0, 1e+16, 1e-7. -/
def json : FloatLayout := ⟨fun e => -5 ≤ e && e < 16, true, true, .toEven⟩

/-- Places the point in, before or after the digits; `e` is the power of ten of the
    last digit. -/
def positionalText (l : FloatLayout) (digits : List Char) (e : Int) : List Char :=
  if 0 ≤ e then
    digits ++ List.replicate e.toNat '0' ++ (if l.pointZero then ['.', '0'] else [])
  else
    let places := (-e).toNat
    if places < digits.length then
      digits.take (digits.length - places) ++ '.' :: digits.drop (digits.length - places)
    else '0' :: '.' :: List.replicate (places - digits.length) '0' ++ digits

def exponentText (l : FloatLayout) (digits : List Char) (e : Int) : List Char :=
  let mantissa := match digits with
    | [] | [_] => digits
    | d :: ds => d :: '.' :: ds
  let mark := if e < 0 then ['e', '-'] else if l.exponentPlus then ['e', '+'] else ['e']
  mantissa ++ mark ++ Nat.toDigits 10 e.natAbs

def magnitudeText (l : FloatLayout) (rank : Nat) : List Char :=
  if rank = 0 then (if l.pointZero then ['0', '.', '0'] else ['0'])
  else
    let d := Binary64.shortest l.tie rank
    let digits := Nat.toDigits 10 d.digits
    let lead := d.exponent + digits.length - 1
    if l.positional lead then l.positionalText digits d.exponent else l.exponentText digits lead

def write (l : FloatLayout) : Binary64 → String
  | .nan => "NaN"
  | .infinite s => if s then "-inf" else "inf"
  | .finite s r => String.ofList ((if s then ['-'] else []) ++ l.magnitudeText r.val)

end FloatLayout

end EntityQuery
