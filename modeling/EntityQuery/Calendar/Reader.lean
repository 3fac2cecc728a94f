/-
  EntityQuery.Calendar.Reader — reading dates and times from text.

  A date is year-month-day; a date and time has a T and hours:minutes:seconds with
  an optional fraction, or hours:minutes alone. Numbers need not be padded and may
  have blanks before them; a month, a day or a part of the time takes at most two
  digits, a year at most four unless a sign stands before it. Digits of a fraction
  past the ninth are skipped. Nothing may be left over.
-/

import EntityQuery.Text.Blank
import EntityQuery.Number.Numeral
import EntityQuery.Calendar.Date

namespace EntityQuery.Calendar

/-- Reads between one and `width` digits. -/
def readDigits? (width : Nat) (cs : List Char) : Option (List Char × List Char) :=
  let ds := (cs.take width).takeWhile Char.isDigit
  if ds.isEmpty then none else some (ds, cs.drop ds.length)

/-- Reads a number of at most `width` digits, blanks before it skipped. -/
def readField? (width : Nat) (cs : List Char) : Option (Nat × List Char) :=
  (readDigits? width (Text.trimStart cs)).map fun (ds, rest) => (Numeral.digitsValue ds, rest)

/-- Reads a year. A sign lifts the bound on the digits. -/
def readYear? (cs : List Char) : Option (Int × List Char) :=
  match Text.trimStart cs with
  | '-' :: r => (readDigits? r.length r).map fun (ds, rest) => (-(Numeral.digitsValue ds : Int), rest)
  | '+' :: r => (readDigits? r.length r).map fun (ds, rest) => ((Numeral.digitsValue ds : Int), rest)
  | r => (readDigits? 4 r).map fun (ds, rest) => ((Numeral.digitsValue ds : Int), rest)

def readMark? (mark : Char) : List Char → Option (List Char)
  | c :: cs => if c == mark then some cs else none
  | [] => none

def readDatePart? (cs : List Char) : Option (Date × List Char) := do
  let (year, cs) ← readYear? cs
  let cs ← readMark? '-' cs
  let (month, cs) ← readField? 2 cs
  let cs ← readMark? '-' cs
  let (day, cs) ← readField? 2 cs
  let date ← Date.of? year month day
  pure (date, cs)

/-- Reads an optional fraction as nanoseconds. -/
def readFraction? : List Char → Option (Nat × List Char)
  | '.' :: cs =>
    (readDigits? 9 cs).map fun (ds, rest) =>
      (Numeral.digitsValue ds * Nat.pow 10 (9 - ds.length), rest.dropWhile Char.isDigit)
  | cs => some (0, cs)

def atEnd? (a : α) (cs : List Char) : Option α := if cs.isEmpty then some a else none

def readDate? (cs : List Char) : Option Date := do
  let (date, cs) ← readDatePart? cs
  atEnd? date cs

/-- Date, T, hours and minutes; what follows is left. -/
def readMinutes? (cs : List Char) : Option (Date × Nat × Nat × List Char) := do
  let (date, cs) ← readDatePart? cs
  let cs ← readMark? 'T' cs
  let (hour, cs) ← readField? 2 cs
  let cs ← readMark? ':' cs
  let (minute, cs) ← readField? 2 cs
  pure (date, hour, minute, cs)

def readSeconds? (cs : List Char) : Option DateTime := do
  let (date, hour, minute, cs) ← readMinutes? cs
  let cs ← readMark? ':' cs
  let (second, cs) ← readField? 2 cs
  let (nanosecond, cs) ← readFraction? cs
  let time ← TimeOfDay.of? hour minute second nanosecond
  atEnd? ⟨date, time⟩ cs

def readWholeMinutes? (cs : List Char) : Option DateTime := do
  let (date, hour, minute, cs) ← readMinutes? cs
  let time ← TimeOfDay.of? hour minute 0 0
  atEnd? ⟨date, time⟩ cs

def readDateTime? (cs : List Char) : Option DateTime := (readSeconds? cs).or (readWholeMinutes? cs)

end EntityQuery.Calendar
