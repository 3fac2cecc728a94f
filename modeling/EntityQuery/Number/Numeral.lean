/-
  EntityQuery.Number.Numeral — reading numbers from text.

  A whole numeral is an optional sign and ASCII digits (`readInt?`), of any length;
  `readInt64?` wants its value in 64 bits. A binary number may also have a point,
  digits on either side of it, a power of ten after an e, or be one of the words
  inf, infinity and nan in any case (`readBinary64?`); it is rounded once, from its
  exact value, however many digits there are.
-/

import EntityQuery.Number.Binary64

namespace EntityQuery.Numeral

def digitValue (c : Char) : Nat := c.toNat - '0'.toNat

/-- The value of a run of digits, most significant first. -/
def digitsValue (cs : List Char) : Nat := cs.foldl (fun n c => 10 * n + digitValue c) 0

/-- Takes a sign off the front; no sign means positive. -/
def splitSign : List Char → Bool × List Char
  | '-' :: cs => (true, cs)
  | '+' :: cs => (false, cs)
  | cs => (false, cs)

def splitDigits (cs : List Char) : List Char × List Char := (cs.takeWhile Char.isDigit, cs.dropWhile Char.isDigit)

def readInt? (cs : List Char) : Option Int :=
  let (negative, ds) := splitSign cs
  if ds.isEmpty || !ds.all Char.isDigit then none
  else some (if negative then -(digitsValue ds : Int) else digitsValue ds)

def inInt64 (n : Int) : Bool := -0x8000000000000000 ≤ n && n < 0x8000000000000000

def int64? (n : Int) : Option Int64 := if inInt64 n then some (Int64.ofInt n) else none

def readInt64? (cs : List Char) : Option Int64 := (readInt? cs).bind int64?

/-! ## Binary numbers -/

/-- Powers of ten this far out leave every numeral of its length at zero or infinity. -/
def powerLimit (digits : Nat) : Nat := digits + 400

/-- The number digits · 10 ^ power, rounded once. -/
def scaled (negative : Bool) (digits : List Char) (power : Int) : Binary64 :=
  let n := digitsValue digits
  if n = 0 then .signedZero negative
  else if power > powerLimit digits.length then .infinite negative
  else if power < -(powerLimit digits.length : Int) then .signedZero negative
  else .nearest negative (n * Nat.pow 10 power.toNat) (Nat.pow 10 (-power).toNat)

/-- The power of ten that ends a numeral: nothing, or an e and a whole numeral. -/
def readPower? : List Char → Option Int
  | [] => some 0
  | c :: cs => if c == 'e' || c == 'E' then readInt? cs else none

def readUnsigned? (negative : Bool) (cs : List Char) : Option Binary64 :=
  let (whole, rest) := splitDigits cs
  let (fraction, rest) := match rest with
    | '.' :: r => splitDigits r
    | _ => ([], rest)
  if whole.isEmpty && fraction.isEmpty then none
  else (readPower? rest).map fun p => scaled negative (whole ++ fraction) (p - fraction.length)

def readBinary64? (cs : List Char) : Option Binary64 :=
  let (negative, body) := splitSign cs
  match String.ofList (body.map Char.toLower) with
  | "inf" | "infinity" => some (.infinite negative)
  | "nan" => some .nan
  | _ => readUnsigned? negative body

end EntityQuery.Numeral
