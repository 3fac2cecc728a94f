/-
  EntityQuery.Calendar.Date — dates and times of day of the proleptic Gregorian
  calendar, and their text.

  A date's year lies between -262143 and 262142. A time of day has nanoseconds and
  may stand in a leap second, written as second 60. Every value of the types is a
  date or a time: the ranges are part of them. A leap second follows second 59 of a
  minute; one after another second, which a count of seconds and nanoseconds could
  hold and no text spells, is left out.

  Text: the year has four digits, or a sign and at least four outside 0 to 9999;
  a fraction is written with 3, 6 or 9 digits, the fewest that hold it, and not at
  all when it is zero.
-/

namespace EntityQuery

namespace Calendar

def isLeap (year : Int) : Bool := year % 4 == 0 && (year % 100 != 0 || year % 400 == 0)

def daysIn (year : Int) (month : Nat) : Nat :=
  if month = 2 then if isLeap year then 29 else 28
  else if month = 4 ∨ month = 6 ∨ month = 9 ∨ month = 11 then 30
  else 31

/-- A number in decimal digits, padded with zeros on the left. -/
def padded (width n : Nat) : String :=
  let ds := Nat.toDigits 10 n
  String.ofList (List.replicate (width - ds.length) '0' ++ ds)

end Calendar

structure Date where
  year : Int
  month : Nat
  day : Nat
  year_range : -262143 ≤ year ∧ year ≤ 262142
  month_range : 1 ≤ month ∧ month ≤ 12
  day_range : 1 ≤ day ∧ day ≤ Calendar.daysIn year month
  deriving DecidableEq

structure TimeOfDay where
  hour : Nat
  minute : Nat
  second : Nat
  nanosecond : Nat
  hour_lt : hour < 24
  minute_lt : minute < 60
  second_le : second ≤ 60
  nanosecond_lt : nanosecond < 1000000000
  deriving DecidableEq

structure DateTime where
  date : Date
  time : TimeOfDay
  deriving DecidableEq

namespace Date

def of? (year : Int) (month day : Nat) : Option Date :=
  if h : (-262143 ≤ year ∧ year ≤ 262142) ∧ (1 ≤ month ∧ month ≤ 12) ∧
      (1 ≤ day ∧ day ≤ Calendar.daysIn year month) then
    some ⟨year, month, day, h.1, h.2.1, h.2.2⟩
  else none

def compare (a b : Date) : Ordering :=
  (Ord.compare a.year b.year).then ((Ord.compare a.month b.month).then (Ord.compare a.day b.day))

def yearText (year : Int) : String :=
  if 0 ≤ year ∧ year ≤ 9999 then Calendar.padded 4 year.toNat
  else (if year < 0 then "-" else "+") ++ Calendar.padded 4 year.natAbs

def toText (d : Date) : String :=
  yearText d.year ++ "-" ++ Calendar.padded 2 d.month ++ "-" ++ Calendar.padded 2 d.day

end Date

namespace TimeOfDay

def midnight : TimeOfDay := ⟨0, 0, 0, 0, by decide, by decide, by decide, by decide⟩

def of? (hour minute second nanosecond : Nat) : Option TimeOfDay :=
  if h : hour < 24 ∧ minute < 60 ∧ second ≤ 60 ∧ nanosecond < 1000000000 then
    some ⟨hour, minute, second, nanosecond, h.1, h.2.1, h.2.2.1, h.2.2.2⟩
  else none

def compare (a b : TimeOfDay) : Ordering :=
  (Ord.compare a.hour b.hour).then <| (Ord.compare a.minute b.minute).then <|
    (Ord.compare a.second b.second).then (Ord.compare a.nanosecond b.nanosecond)

/-- Hours, minutes and whole seconds. -/
def clockText (t : TimeOfDay) : String :=
  Calendar.padded 2 t.hour ++ ":" ++ Calendar.padded 2 t.minute ++ ":" ++ Calendar.padded 2 t.second

def fractionText (nanosecond : Nat) : String :=
  if nanosecond = 0 then ""
  else if nanosecond % 1000000 = 0 then "." ++ Calendar.padded 3 (nanosecond / 1000000)
  else if nanosecond % 1000 = 0 then "." ++ Calendar.padded 6 (nanosecond / 1000)
  else "." ++ Calendar.padded 9 nanosecond

def toText (t : TimeOfDay) : String := t.clockText ++ fractionText t.nanosecond

end TimeOfDay

namespace DateTime

/-- The first moment of a date. -/
def ofDate (d : Date) : DateTime := ⟨d, .midnight⟩

def compare (a b : DateTime) : Ordering := (a.date.compare b.date).then (a.time.compare b.time)

/-- Date and time with a space between them, as values are shown. -/
def toText (t : DateTime) : String := t.date.toText ++ " " ++ t.time.toText

/-- Date and time with a T between them, fraction included. -/
def isoText (t : DateTime) : String := t.date.toText ++ "T" ++ t.time.toText

/-- The form used in JSON: with a T, to whole seconds. -/
def wholeSecondText (t : DateTime) : String := t.date.toText ++ "T" ++ t.time.clockText

end DateTime

end EntityQuery
