/-
  EntityQuery.Number.Binary64 — binary floating point of 64 bits, by exact
  arithmetic on naturals.

  (1) Representation. A finite number is a sign and a rank: the place of its
  magnitude among the finite magnitudes of the format, counted from zero. The rank
  is the number's bits without the sign, so ranks are ordered as magnitudes are
  (`compare?`), and every finite number is a whole multiple of a power of two
  (`significand`, `exponent`, `ratio`). There is one NaN.

  (2) Rounding (`nearest`). A quotient of naturals goes to the nearest magnitude,
  an exact tie to the even rank, and past the greatest finite one to infinity.

  (3) Arithmetic (`mul`, `div`, `add`) is the exact result, rounded once.
-/

namespace EntityQuery

/-! ## (1) Representation -/

/-- How many finite magnitudes there are: the bits of the positive infinity. -/
abbrev Binary64.rankBound : Nat := 0x7FF0000000000000

inductive Binary64 where
  | finite (negative : Bool) (rank : Fin Binary64.rankBound)
  | infinite (negative : Bool)
  | nan
  deriving DecidableEq

namespace Binary64

/-- The bit in front of the 52 that a normal significand stores. -/
abbrev hiddenBit : Nat := 0x10000000000000

/-- The bit that stands for the sign. -/
abbrev signBit : Nat := 0x8000000000000000

def signedZero (negative : Bool) : Binary64 := .finite negative ⟨0, by decide⟩

def one : Binary64 := .finite false ⟨0x3FF0000000000000, by decide⟩

/-- The whole number that the power of two multiplies: 53 bits, fewer below the
    smallest normal magnitude. -/
def significand (rank : Nat) : Nat := if rank < hiddenBit then rank else hiddenBit + rank % hiddenBit

def exponent (rank : Nat) : Int := if rank < hiddenBit then -1074 else (rank / hiddenBit : Nat) - 1075

/-- The magnitude of a rank as an exact quotient. -/
def ratio (rank : Nat) : Nat × Nat :=
  (significand rank * Nat.pow 2 (exponent rank).toNat, Nat.pow 2 (-exponent rank).toNat)

def isNegative : Binary64 → Bool
  | .finite s _ | .infinite s => s
  | .nan => false

def neg : Binary64 → Binary64
  | .finite s r => .finite (!s) r
  | .infinite s => .infinite (!s)
  | .nan => .nan

def isZero : Binary64 → Bool
  | .finite _ r => r.val == 0
  | _ => false

def isFinite : Binary64 → Bool
  | .finite .. => true
  | _ => false

/-- The place of a number on the line: ranks, negative ones below zero, an infinity
    past every finite number. Both zeros lie at 0. -/
def place? : Binary64 → Option Int
  | .finite s r => some (if s then -(r.val : Int) else r.val)
  | .infinite s => some (if s then -(rankBound : Int) else rankBound)
  | .nan => none

/-- A NaN compares with nothing. -/
def compare? (x y : Binary64) : Option Ordering :=
  match x.place?, y.place? with
  | some a, some b => some (compare a b)
  | _, _ => none

/-- The number with these bits; every pattern of a NaN is the one NaN. -/
def ofBits (bits : Nat) : Binary64 :=
  let s := bits / signBit % 2 == 1
  let m := bits % signBit
  if h : m < rankBound then .finite s ⟨m, h⟩
  else if m = rankBound then .infinite s
  else .nan

/-- The bits of a number; a NaN has none of its own. -/
def bits? : Binary64 → Option Nat
  | .finite s r => some ((if s then signBit else 0) + r.val)
  | .infinite s => some ((if s then signBit else 0) + rankBound)
  | .nan => none

/-! ## (2) Rounding -/

/-- The quotient rounded to the nearest whole number, an exact tie to the even one. -/
def roundDiv (num den : Nat) : Nat :=
  let q := num / den
  match compare (2 * (num % den)) den with
  | .lt => q
  | .gt => q + 1
  | .eq => q + q % 2

/-- The exponent of the leading bit of a positive quotient. -/
def leadingBit (num den : Nat) : Int :=
  let e : Int := (Nat.log2 num : Int) - Nat.log2 den
  if den * Nat.pow 2 e.toNat ≤ num * Nat.pow 2 (-e).toNat then e else e - 1

/-- The rank nearest to a quotient, counted as if there were no greatest one. The
    last place is worth 2 ^ q; rounding up into the next power of two carries into
    the next rank by itself. -/
def nearestRank (num den : Nat) : Nat :=
  if num = 0 then 0
  else
    let q := max (leadingBit num den - 52) (-1074)
    roundDiv (num * Nat.pow 2 (-q).toNat) (den * Nat.pow 2 q.toNat) + (q + 1074).toNat * hiddenBit

def nearest (negative : Bool) (num den : Nat) : Binary64 :=
  if h : nearestRank num den < rankBound then .finite negative ⟨nearestRank num den, h⟩
  else .infinite negative

def ofNat (n : Nat) : Binary64 := nearest false n 1

def ofInt (n : Int) : Binary64 := nearest (n < 0) n.natAbs 1

/-! ## (3) Arithmetic -/

def mul : Binary64 → Binary64 → Binary64
  | .finite s a, .finite t b =>
    nearest (s != t) ((ratio a).1 * (ratio b).1) ((ratio a).2 * (ratio b).2)
  | .nan, _ | _, .nan => .nan
  | .infinite s, y => if y.isZero then .nan else .infinite (s != y.isNegative)
  | x, .infinite t => if x.isZero then .nan else .infinite (x.isNegative != t)

def div : Binary64 → Binary64 → Binary64
  | .finite s a, .finite t b =>
    if b.val = 0 then if a.val = 0 then .nan else .infinite (s != t)
    else nearest (s != t) ((ratio a).1 * (ratio b).2) ((ratio a).2 * (ratio b).1)
  | .nan, _ | _, .nan | .infinite _, .infinite _ => .nan
  | .infinite s, y => .infinite (s != y.isNegative)
  | x, .infinite t => signedZero (x.isNegative != t)

/-- A sum that cancels is the positive zero; two negative zeros stay negative. -/
def add : Binary64 → Binary64 → Binary64
  | .finite s a, .finite t b =>
    let x : Int := (ratio a).1 * (ratio b).2
    let y : Int := (ratio b).1 * (ratio a).2
    let sum := (if s then -x else x) + (if t then -y else y)
    nearest (if sum = 0 then s && t else sum < 0) sum.natAbs ((ratio a).2 * (ratio b).2)
  | .nan, _ | _, .nan => .nan
  | .infinite s, .infinite t => if s = t then .infinite s else .nan
  | .infinite s, _ => .infinite s
  | _, .infinite t => .infinite t

/-- The nearest whole number, halves away from zero. -/
def roundWhole : Binary64 → Binary64
  | .finite s a => nearest s ((2 * (ratio a).1 + (ratio a).2) / (2 * (ratio a).2)) 1
  | x => x

/-- The whole number that a number is, when it is one. -/
def toInt? : Binary64 → Option Int
  | .finite s a =>
    let (num, den) := ratio a
    if num % den = 0 then some (if s then -(num / den : Nat) else (num / den : Nat)) else none
  | _ => none

end Binary64

end EntityQuery
