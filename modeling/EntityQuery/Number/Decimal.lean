/-
  EntityQuery.Number.Decimal — decimal numbers of 96 bits and at most 28 places:
  a sign, a mantissa and a scale. The scale is kept, so 1.0 and 1.00 differ as
  values of the type while they compare equal.

  (1) Text. Digits with the point the scale asks for (`toText`); reading takes
  underscores after digits, rounds what goes past 28 places or 96 bits, and takes
  a power of ten after an e, which may round once more (`read?`).

  (2) Binary numbers. A whole one is taken as it is, if 96 bits hold it. For any
  other, `ofBinary64?` goes over to tens by factors of two and five within the 96
  bits and then rounds to the 15 or 16 digits a binary number vouches for.
  `toBinary64` adds the two parts of the number and rounds away what the addition
  brought in.
-/

import EntityQuery.Number.Numeral

namespace EntityQuery

/-- How many mantissas there are: 2 ^ 96. -/
abbrev Decimal.mantissaBound : Nat := 0x1000000000000000000000000

structure Decimal where
  negative : Bool
  mantissa : Nat
  scale : Nat
  mantissa_lt : mantissa < Decimal.mantissaBound
  scale_le : scale ≤ 28
  deriving DecidableEq

namespace Decimal

/-- The decimal with these parts, when they are in range. -/
def of? (negative : Bool) (mantissa scale : Nat) : Option Decimal :=
  if h : mantissa < mantissaBound ∧ scale ≤ 28 then some ⟨negative, mantissa, scale, h.1, h.2⟩ else none

def ofInt64 (n : Int64) : Decimal :=
  ⟨n.toInt < 0, n.toInt.natAbs, 0, by have := n.toInt_lt; have := n.le_toInt; unfold mantissaBound; omega, by omega⟩

/-- The mantissa that one has at this scale. -/
def unit (d : Decimal) : Nat := Nat.pow 10 d.scale

/-- The numerator of the value over its unit. -/
def numerator (d : Decimal) : Int := if d.negative then -(d.mantissa : Int) else d.mantissa

/-- Compares the exact values. -/
def compare (a b : Decimal) : Ordering :=
  Ord.compare (a.numerator * b.unit) (b.numerator * a.unit)

/-- The whole number that a decimal is, when it is one. -/
def toInt? (d : Decimal) : Option Int :=
  if d.mantissa % d.unit = 0 then
    some (if d.negative then -(d.mantissa / d.unit : Nat) else (d.mantissa / d.unit : Nat))
  else none

/-! ## (1) Text -/

def magnitudeText (d : Decimal) : List Char :=
  let digits := Nat.toDigits 10 d.mantissa
  let padded := List.replicate (d.scale + 1 - digits.length) '0' ++ digits
  if d.scale = 0 then padded
  else padded.take (padded.length - d.scale) ++ '.' :: padded.drop (padded.length - d.scale)

def toText (d : Decimal) : String := String.ofList ((if d.negative then ['-'] else []) ++ d.magnitudeText)

/-- Digits read from text make no negative zero. -/
def finish? (negative : Bool) (mantissa scale : Nat) : Option Decimal :=
  of? (negative && mantissa != 0) mantissa scale

/-- What may follow the digits that count. -/
def isFiller (c : Char) : Bool := c.isDigit || c == '_'

/-- Rounds at the next digit; those after it no longer count, but nothing else may
    stand among them. A mantissa that no longer fits gives up one more place. -/
def roundAt? (negative : Bool) (mantissa scale : Nat) (next : Char) (rest : List Char) : Option Decimal :=
  if !next.isDigit || !rest.all isFiller then none
  else if Numeral.digitValue next < 5 then finish? negative mantissa scale
  else if mantissa + 1 < mantissaBound then finish? negative (mantissa + 1) scale
  else if scale = 0 then none
  else finish? negative ((mantissa + 5) / 10) (scale - 1)

/-- Reads digits onto the mantissa. `point` is set once the point has been read,
    `some` once a digit has. -/
def readDigits? (negative : Bool) (mantissa scale : Nat) (point some : Bool) : List Char → Option Decimal
  | [] => if some then finish? negative mantissa scale else none
  | c :: cs =>
    if c == '_' then if some then readDigits? negative mantissa scale point some cs else none
    else if point && scale ≥ 28 then roundAt? negative mantissa scale c cs
    else if c.isDigit then
      let next := 10 * mantissa + Numeral.digitValue c
      if next < mantissaBound then readDigits? negative next (if point then scale + 1 else 0) point true cs
      else if point then roundAt? negative mantissa scale c cs
      else none
    else if c == '.' && !point then readDigits? negative mantissa scale true some cs
    else none

def readPlain? (cs : List Char) : Option Decimal :=
  let (negative, body) := Numeral.splitSign cs
  readDigits? negative 0 0 false false body

def readMagnitude? (cs : List Char) : Option Nat :=
  let ds := match cs with
    | '+' :: r => r
    | r => r
  if ds.isEmpty || !ds.all Char.isDigit then none else some (Numeral.digitsValue ds)

/-- The power of ten after an e; a plus may also follow the minus. -/
def readPower? : List Char → Option Int
  | '-' :: cs => (readMagnitude? cs).map fun n => -(n : Int)
  | cs => (readMagnitude? cs).map fun n => (n : Int)

/-- Drops the last digits of a number, a half going up. -/
def dropDigits (count n : Nat) : Nat := (2 * n + Nat.pow 10 count) / (2 * Nat.pow 10 count)

/-- Multiplies by a power of ten. Places past the 28th are rounded away, and what is
    left of a negative number stays negative; whole digits have to fit. -/
def shift? (d : Decimal) (power : Int) : Option Decimal :=
  if power ≤ d.scale then
    let places := (d.scale - power).toNat
    of? d.negative (dropDigits (places - 28) d.mantissa) (min places 28)
  else of? d.negative (d.mantissa * Nat.pow 10 (power - d.scale).toNat) 0

def isPowerMark (c : Char) : Bool := c == 'e' || c == 'E'

/-- Reads a number with a power of ten of at most 28. -/
def readScaled? (cs : List Char) : Option Decimal :=
  (readPlain? (cs.takeWhile (!isPowerMark ·))).bind fun d =>
    (readPower? ((cs.dropWhile (!isPowerMark ·)).drop 1)).bind fun power =>
      if power.natAbs ≤ 28 then d.shift? power else none

def read? (cs : List Char) : Option Decimal := (readPlain? cs).or (readScaled? cs)

/-! ## (2) Binary numbers -/

/-- A mantissa of at most 96 bits times a power of ten. -/
structure Tens where
  mantissa : Nat
  power : Int

/-- Divides by 2 ^ steps. An even mantissa is halved; an odd one is multiplied by
    five, and halved with a loss where the product would not fit. -/
def Tens.divideTwos : Nat → Tens → Tens
  | 0, t => t
  | n + 1, t =>
    if t.mantissa % 2 ≠ 0 ∧ t.mantissa * 5 < mantissaBound then divideTwos n ⟨t.mantissa * 5, t.power⟩
    else divideTwos n ⟨t.mantissa / 2, t.power + 1⟩

/-- Drops the last digit, a half going up. -/
def Tens.dropDigit (t : Tens) : Tens := ⟨(t.mantissa + 5) / 10, t.power + 1⟩

/-- Brings the scale down to 28; a mantissa that vanishes on the way is zero. -/
def Tens.bound : Nat → Tens → Tens
  | 0, t => t
  | n + 1, t =>
    if t.power ≥ -28 then t
    else if t.mantissa / 10 = 0 then ⟨0, 0⟩
    else bound n t.dropDigit

/-- Drops digits down to what 52 bits can vouch for. -/
def Tens.shorten : Nat → Tens → Tens
  | 0, t => t
  | n + 1, t => if t.power < 0 ∧ Binary64.hiddenBit ≤ t.mantissa then shorten n t.dropDigit else t

def Tens.stripZeros : Nat → Tens → Tens
  | 0, t => t
  | n + 1, t => if t.power < 0 ∧ t.mantissa % 10 = 0 then stripZeros n ⟨t.mantissa / 10, t.power + 1⟩ else t

/-- The decimal of a binary number: none for a NaN, an infinity or a magnitude that
    96 bits cannot hold; what is too small becomes zero. -/
def ofBinary64? : Binary64 → Option Decimal
  | .finite negative rank =>
    if rank.val = 0 then of? negative 0 0
    else
      let n := Binary64.significand rank
      let e := Binary64.exponent rank
      if 0 ≤ e then of? negative (n * Nat.pow 2 e.toNat) 0
      else
        let t := (((Tens.divideTwos e.natAbs ⟨n, e⟩).bound 1200).shorten 28).stripZeros 28
        of? negative t.mantissa (-t.power).toNat
  | _ => none

/-- Ten to a power, multiplied up from repeated squares, each product rounded. -/
def powerOfTen (n : Nat) : Binary64 :=
  go 5 n .one (.ofNat 10)
where
  go : Nat → Nat → Binary64 → Binary64 → Binary64
    | 0, _, r, _ => r
    | fuel + 1, n, r, a =>
      let r := if n % 2 = 1 then r.mul a else r
      if n / 2 = 0 then r else go fuel (n / 2) r (a.mul a)

/-- The binary number of a decimal: its two parts are rounded and added, and the sum
    is rounded to the places of the decimal. -/
def toBinary64 (d : Decimal) : Binary64 :=
  let whole := Binary64.ofNat (d.mantissa / d.unit)
  let fraction := d.mantissa % d.unit
  if d.scale = 0 then Binary64.ofInt d.numerator
  else
    let magnitude :=
      if fraction = 0 then whole
      else
        let p := powerOfTen d.scale
        let sum := whole.add ((Binary64.ofNat fraction).div (.ofNat d.unit))
        (sum.mul p).roundWhole.div p
    if d.negative then magnitude.neg else magnitude

end Decimal

end EntityQuery
