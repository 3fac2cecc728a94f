/-
  EntityQuery.Json.Lexeme — the leaves of a JSON text: blanks, the three words,
  strings and numbers. Every reader takes what is left of the text and gives a
  value and the shorter rest, or a fault.

  A number's digits are gathered into a 64-bit significand; digits that no longer
  fit only move the power of ten. The significand is then scaled by a rounded power
  of ten, so a number with many digits may differ from the nearest one in its last
  place.
-/

import EntityQuery.Json.Basic
import EntityQuery.Number.Numeral

namespace EntityQuery.Json

abbrev Reading (α : Type) := Except Fault (α × List Char)

def faultAt (cause : Cause) (rest : List Char) (bytes : Nat) : Reading α := .error ⟨cause, rest, bytes⟩

def isSpace (c : Char) : Bool := c == ' ' || c == '\n' || c == '\t' || c == '\r'

def skipSpace (cs : List Char) : List Char := cs.dropWhile isSpace

/-- Reads the rest of a word whose first letter is known. -/
def word (value : α) : List Char → List Char → Reading α
  | [], cs => .ok (value, cs)
  | _ :: _, [] => faultAt .endInValue [] 0
  | w :: ws, c :: cs => if c == w then word value ws cs else faultAt .expectedWord (c :: cs) 1

/-! ## Strings -/

def hexValue? (c : Char) : Option Nat :=
  if c.isDigit then some (c.toNat - '0'.toNat)
  else if 'a' ≤ c ∧ c ≤ 'f' then some (c.toNat - 'a'.toNat + 10)
  else if 'A' ≤ c ∧ c ≤ 'F' then some (c.toNat - 'A'.toNat + 10)
  else none

def hexQuad? (a b c d : Char) : Option Nat := do
  let w ← hexValue? a
  let x ← hexValue? b
  let y ← hexValue? c
  let z ← hexValue? d
  pure (((w * 16 + x) * 16 + y) * 16 + z)

/-- Four hexadecimal digits. -/
def hexEscape : List Char → Reading Nat
  | a :: b :: c :: d :: cs =>
    match hexQuad? a b c d with
    | some n => .ok (n, cs)
    | none => faultAt .invalidEscape (a :: b :: c :: d :: cs) 4
  | cs => if 4 ≤ byteLength cs then faultAt .invalidEscape cs 4 else faultAt .endInString [] 0

/-- The second half of a surrogate pair, after its first half. -/
def trailingHalf : List Char → Reading Nat
  | '\\' :: 'u' :: cs =>
    (hexEscape cs).bind fun (n, rest) =>
      if 0xDC00 ≤ n ∧ n ≤ 0xDFFF then .ok (n, rest) else faultAt .loneSurrogate rest 0
  | ['\\'] => faultAt .endInString [] 0
  | '\\' :: cs => faultAt .endOfEscape cs 1
  | [] => faultAt .endInString [] 0
  | cs => faultAt .endOfEscape cs 1

def unicodeEscape (cs : List Char) : Reading Char :=
  (hexEscape cs).bind fun (n, rest) =>
    if 0xDC00 ≤ n ∧ n ≤ 0xDFFF then faultAt .loneSurrogate rest 0
    else if 0xD800 ≤ n ∧ n ≤ 0xDBFF then
      (trailingHalf rest).bind fun (m, rest) =>
        .ok (Char.ofNat ((n - 0xD800) * 0x400 + (m - 0xDC00) + 0x10000), rest)
    else .ok (Char.ofNat n, rest)

/-- The character that a one-letter escape stands for. -/
def shortEscape? : Char → Option Char
  | '"' => some '"'
  | '\\' => some '\\'
  | '/' => some '/'
  | 'b' => some '\x08'
  | 'f' => some '\x0c'
  | 'n' => some '\n'
  | 'r' => some '\r'
  | 't' => some '\t'
  | _ => none

/-- What follows a backslash. -/
def escape : List Char → Reading Char
  | [] => faultAt .endInString [] 0
  | c :: cs =>
    if c == 'u' then unicodeEscape cs
    else
      match shortEscape? c with
      | some e => .ok (e, cs)
      | none => faultAt .invalidEscape (c :: cs) 1

theorem hexEscape_shorter {cs rest : List Char} {n : Nat} (h : hexEscape cs = .ok (n, rest)) :
    rest.length < cs.length := by
  unfold hexEscape at h
  split at h
  · split at h
    · cases h; simp; omega
    · cases h
  · split at h <;> cases h

theorem trailingHalf_shorter {cs rest : List Char} {n : Nat} (h : trailingHalf cs = .ok (n, rest)) :
    rest.length < cs.length := by
  unfold trailingHalf at h
  split at h
  · rename_i cs
    cases hx : hexEscape cs with
    | error e => rw [hx] at h; cases h
    | ok r =>
      rw [hx] at h
      simp only [Except.bind] at h
      split at h
      · cases h
        have := hexEscape_shorter hx
        simp; omega
      · cases h
  all_goals cases h

theorem unicodeEscape_shorter {cs rest : List Char} {c : Char} (h : unicodeEscape cs = .ok (c, rest)) :
    rest.length < cs.length := by
  unfold unicodeEscape at h
  cases hx : hexEscape cs with
  | error e => rw [hx] at h; cases h
  | ok r =>
    have hr := hexEscape_shorter hx
    rw [hx] at h
    simp only [Except.bind] at h
    split at h
    · cases h
    · split at h
      · cases ht : trailingHalf r.2 with
        | error e => rw [ht] at h; cases h
        | ok t =>
          have := trailingHalf_shorter ht
          rw [ht] at h
          have hrest : t.2 = rest := (Prod.mk.inj (Except.ok.inj h)).2
          subst hrest
          omega
      · have hrest : r.2 = rest := (Prod.mk.inj (Except.ok.inj h)).2
        subst hrest
        omega

theorem escape_shorter {cs rest : List Char} {c : Char} (h : escape cs = .ok (c, rest)) :
    rest.length < cs.length := by
  cases cs with
  | nil => cases h
  | cons d ds =>
    simp only [escape] at h
    split at h
    · have := unicodeEscape_shorter h
      simp; omega
    · split at h
      · cases h; simp
      · cases h

/-- Reads up to the closing quote, onto the characters read so far in reverse. -/
def stringTail (read : List Char) (cs : List Char) : Reading String :=
  match cs with
  | [] => faultAt .endInString [] 0
  | c :: cs =>
    if c == '"' then .ok (String.ofList read.reverse, cs)
    else if c == '\\' then
      match h : escape cs with
      | .ok (e, rest) =>
        have := escape_shorter h
        stringTail (e :: read) rest
      | .error f => .error f
    else if c.toNat < 0x20 then faultAt .controlCharacter (c :: cs) 1
    else stringTail (c :: read) cs
termination_by cs.length

/-! ## Numbers -/

inductive Number where
  | whole (n : Int)
  | float (x : Binary64)

/-- Gathers digits onto a number as long as it stays within the limit; also counts them. -/
def gather (limit : Nat) (n count : Nat) : List Char → Nat × Nat × List Char
  | [] => (n, count, [])
  | c :: cs =>
    let next := 10 * n + Numeral.digitValue c
    if c.isDigit && next ≤ limit then gather limit next (count + 1) cs else (n, count, c :: cs)

def startsWithDigit : List Char → Bool
  | c :: _ => c.isDigit
  | [] => false

/-- Scales by a power of ten. The power is itself a rounded number; one below
    10 ^ -308 is reached in steps. None when the result is too large. -/
def scale? : Nat → Binary64 → Int → Option Binary64
  | 0, x, _ => some x
  | fuel + 1, x, power =>
    if power.natAbs ≤ 308 then
      if 0 ≤ power then
        let y := x.mul (.ofNat (Nat.pow 10 power.natAbs))
        if y.isFinite then some y else none
      else some (x.div (.ofNat (Nat.pow 10 power.natAbs)))
    else if x.isZero then some x
    else if 0 ≤ power then none
    else scale? fuel (x.div (.ofNat (Nat.pow 10 308))) (power + 308)

def finishFloat (negative : Bool) (significand : Nat) (power : Int) (rest : List Char) : Reading Number :=
  match scale? 4 (.ofNat significand) power with
  | some x => .ok (.float (if negative then x.neg else x), rest)
  | none => faultAt .numberOutOfRange rest 0

/-- The digits of a power of ten, after its mark and sign. -/
def powerDigits (negative : Bool) (significand : Nat) (power : Int) (down : Bool) : List Char → Reading Number
  | [] => faultAt .endInValue [] 0
  | c :: cs =>
    if c.isDigit then
      let (p, _, rest) := gather 0x7FFFFFFF 0 0 (c :: cs)
      if startsWithDigit rest then
        if significand ≠ 0 ∧ !down then faultAt .numberOutOfRange rest 1
        else .ok (.float (.signedZero negative), rest.dropWhile Char.isDigit)
      else finishFloat negative significand (if down then power - p else power + p) rest
    else faultAt .invalidNumber (c :: cs) 1

def powerPart (negative : Bool) (significand : Nat) (power : Int) : List Char → Reading Number
  | '+' :: cs => powerDigits negative significand power false cs
  | '-' :: cs => powerDigits negative significand power true cs
  | cs => powerDigits negative significand power false cs

/-- An optional power of ten, after the digits. -/
def floatEnd (negative : Bool) (significand : Nat) (power : Int) : List Char → Reading Number
  | 'e' :: cs | 'E' :: cs => powerPart negative significand power cs
  | cs => finishFloat negative significand power cs

def fractionPart (negative : Bool) (significand : Nat) (power : Int) (cs : List Char) : Reading Number :=
  let (n, count, rest) := gather 0xFFFFFFFFFFFFFFFF significand 0 cs
  if startsWithDigit rest then floatEnd negative n (power - count) (rest.dropWhile Char.isDigit)
  else if count = 0 then
    if rest.isEmpty then faultAt .endInValue [] 0 else faultAt .invalidNumber rest 1
  else floatEnd negative n (power - count) rest

/-- A negative zero and what does not fit in 64 bits are binary numbers. -/
def wholeNumber (negative : Bool) (n : Nat) : Number :=
  if !negative then .whole n
  else if n = 0 ∨ 0x8000000000000000 < n then .float (Binary64.ofNat n).neg
  else .whole (-n)

/-- What may follow the digits of the whole part. -/
def wholeEnd (negative : Bool) (n : Nat) : List Char → Reading Number
  | '.' :: cs => fractionPart negative n 0 cs
  | 'e' :: cs | 'E' :: cs => powerPart negative n 0 cs
  | cs => .ok (wholeNumber negative n, cs)

/-- The whole part is too long for 64 bits: its further digits count as a power of ten. -/
def longEnd (negative : Bool) (n : Nat) (power : Int) : List Char → Reading Number
  | '.' :: cs => fractionPart negative n power cs
  | cs => floatEnd negative n power cs

/-- A number, after its sign. -/
def number (negative : Bool) : List Char → Reading Number
  | [] => faultAt .endInValue [] 0
  | '0' :: cs => if startsWithDigit cs then faultAt .invalidNumber cs 1 else wholeEnd negative 0 cs
  | c :: cs =>
    if c.isDigit then
      let (n, _, rest) := gather 0xFFFFFFFFFFFFFFFF 0 0 (c :: cs)
      if startsWithDigit rest then
        longEnd negative n (rest.takeWhile Char.isDigit).length (rest.dropWhile Char.isDigit)
      else wholeEnd negative n rest
    else faultAt .invalidNumber (c :: cs) 1

def Number.toJson : Number → Json
  | .whole n => .whole n
  | .float x => .float x

end EntityQuery.Json
