/-
  EntityQuery.Proofs.Dates — dates and times written and read back
  (`Value.dates_read_back`).

  (1) Digits. A padded number has as many digits as it is padded to, or more, and is
  read as itself (`readDigits?_append`, `readField?_padded`).

  (2) Dates. Every date is read from its text, years before zero and years with more
  than four digits too (`readDate?_toText`).

  (3) Times. In a leap second or not, a date and time is read from its full text
  (`readDateTime?_isoText`). Its text to whole seconds, which is its form in JSON, has
  lost the fraction and is read without it (`readDateTime?_wholeSecondText`).

  (4) Conversion. A text that is converted is trimmed first, and none of these texts has
  a blank.
-/

import Mathlib.Algebra.Group.Nat.Defs
import EntityQuery.Conversion
import EntityQuery.Value.Json
import EntityQuery.Proofs.Trimming

namespace EntityQuery

/-! ## (1) Digits -/

namespace Calendar

theorem toList_padded (width n : Nat) : (padded width n).toList =
    List.replicate (width - (Nat.toDigits 10 n).length) '0' ++ Nat.toDigits 10 n := by
  simp [padded]

theorem isDigit_of_mem_padded {width n : Nat} {c : Char} (h : c ∈ (padded width n).toList) : c.isDigit = true := by
  rw [toList_padded] at h
  rcases List.mem_append.mp h with h | h
  · rw [List.eq_of_mem_replicate h]
    rfl
  · exact Nat.isDigit_of_mem_toDigits (by decide) (by decide) h

theorem digitsValue_padded (width n : Nat) : Numeral.digitsValue (padded width n).toList = n := by
  rw [toList_padded]
  show Nat.ofDigitChars 10 _ 0 = n
  rw [Nat.ofDigitChars_append, Nat.ofDigitChars_replicate_zero, Nat.mul_zero, Nat.ofDigitChars_ten_toDigits]

theorem padded_ne_nil (width n : Nat) : (padded width n).toList ≠ [] := by
  rw [toList_padded]
  exact List.append_ne_nil_of_right_ne_nil _ Nat.toDigits_ne_nil

theorem length_padded {width n : Nat} (hwidth : 0 < width) (h : n < 10 ^ width) : (padded width n).toList.length = width := by
  have hdigits : (Nat.toDigits 10 n).length ≤ width := (Nat.length_toDigits_le_iff (by decide) hwidth).mpr h
  rw [toList_padded, List.length_append, List.length_replicate]
  omega

/-- A text that goes on with no digit. -/
def NoDigitAhead (cs : List Char) : Prop := ∀ c ∈ cs.head?, c.isDigit = false

theorem readDigits?_append {width : Nat} {ds rest : List Char} (hdigits : ∀ c ∈ ds, c.isDigit = true) (hne : ds ≠ [])
    (hwidth : ds.length ≤ width) (hend : ds.length = width ∨ NoDigitAhead rest) :
    readDigits? width (ds ++ rest) = some (ds, rest) := by
  have hstop : (rest.take (width - ds.length)).takeWhile Char.isDigit = [] := by
    rcases hend with hfull | hnone
    · rw [hfull, Nat.sub_self]
      rfl
    · cases rest with
      | nil => simp
      | cons c cs =>
        have hc : c.isDigit = false := hnone c rfl
        cases width - ds.length with
        | zero => rfl
        | succ k => simp [hc]
  have htaken : ((ds ++ rest).take width).takeWhile Char.isDigit = ds := by
    rw [List.take_append, List.take_of_length_le hwidth, List.takeWhile_append_of_pos hdigits, hstop, List.append_nil]
  rw [readDigits?, htaken]
  simp [hne]

theorem trimStart_digits {ds : List Char} (hdigits : ∀ c ∈ ds, c.isDigit = true) (hne : ds ≠ []) (rest : List Char) :
    Text.trimStart (ds ++ rest) = ds ++ rest := by
  obtain ⟨c, cs, rfl⟩ := List.exists_cons_of_ne_nil hne
  exact Text.trimStart_of_not_blank (Text.not_blank_of_isDigit (hdigits c List.mem_cons_self)) (cs ++ rest)

theorem readField?_padded {n : Nat} (h : n < 100) (rest : List Char) :
    readField? 2 ((padded 2 n).toList ++ rest) = some (n, rest) := by
  have hlength : (padded 2 n).toList.length = 2 := length_padded (by decide) h
  rw [readField?, trimStart_digits (fun _ => isDigit_of_mem_padded) (padded_ne_nil 2 n),
    readDigits?_append (fun _ => isDigit_of_mem_padded) (padded_ne_nil 2 n) (Nat.le_of_eq hlength) (.inl hlength)]
  exact congrArg (fun value => some (value, rest)) (digitsValue_padded 2 n)

/-! ## (2) Dates -/

theorem readYear?_of_isDigit {c : Char} (h : c.isDigit = true) (cs : List Char) :
    readYear? (c :: cs) = (readDigits? 4 (c :: cs)).map fun (ds, rest) => ((Numeral.digitsValue ds : Int), rest) := by
  have hminus : c ≠ '-' := fun heq => by rw [heq] at h; cases h
  have hplus : c ≠ '+' := fun heq => by rw [heq] at h; cases h
  unfold readYear?
  rw [Text.trimStart_of_not_blank (Text.not_blank_of_isDigit h)]
  split
  · next heq => exact absurd (List.cons.inj heq).1 hminus
  · next heq => exact absurd (List.cons.inj heq).1 hplus
  · rfl

/-- Without a sign a year has four digits; behind a sign it has as many as there are. -/
theorem readYear?_yearText (year : Int) {rest : List Char} (hrest : NoDigitAhead rest) :
    readYear? ((Date.yearText year).toList ++ rest) = some (year, rest) := by
  have hdigits : ∀ n, ∀ c ∈ (padded 4 n).toList, c.isDigit = true := fun _ _ => isDigit_of_mem_padded
  have hsigned : readDigits? ((padded 4 year.natAbs).toList ++ rest).length ((padded 4 year.natAbs).toList ++ rest) =
      some ((padded 4 year.natAbs).toList, rest) :=
    readDigits?_append (hdigits _) (padded_ne_nil 4 _) (by simp) (.inr hrest)
  have hminus : ∀ cs, readYear? ('-' :: cs) = (readDigits? cs.length cs).map fun (ds, rest) =>
      (-(Numeral.digitsValue ds : Int), rest) := fun _ => rfl
  have hplus : ∀ cs, readYear? ('+' :: cs) = (readDigits? cs.length cs).map fun (ds, rest) =>
      ((Numeral.digitsValue ds : Int), rest) := fun _ => rfl
  unfold Date.yearText
  split
  · next hrange =>
    have hlength : (padded 4 year.toNat).toList.length = 4 := length_padded (by decide) (by omega)
    have hplain : readDigits? 4 ((padded 4 year.toNat).toList ++ rest) = some ((padded 4 year.toNat).toList, rest) :=
      readDigits?_append (hdigits _) (padded_ne_nil 4 _) (Nat.le_of_eq hlength) (.inl hlength)
    obtain ⟨c, cs, hcs⟩ := List.exists_cons_of_ne_nil (padded_ne_nil 4 year.toNat)
    have hc : c.isDigit = true := hdigits year.toNat c (hcs ▸ List.mem_cons_self)
    have hvalue : (Numeral.digitsValue (c :: cs) : Int) = year := by
      rw [← hcs, digitsValue_padded]
      omega
    rw [hcs] at hplain ⊢
    rw [List.cons_append] at hplain ⊢
    rw [readYear?_of_isDigit hc, hplain]
    exact congrArg (fun y : Int => some (y, rest)) hvalue
  · split
    · next hneg =>
      have htext : ("-" ++ padded 4 year.natAbs).toList ++ rest = '-' :: ((padded 4 year.natAbs).toList ++ rest) := by simp
      have hvalue : -(Numeral.digitsValue (padded 4 year.natAbs).toList : Int) = year := by
        rw [digitsValue_padded]
        omega
      rw [htext, hminus, hsigned]
      exact congrArg (fun y : Int => some (y, rest)) hvalue
    · next hpos =>
      have htext : ("+" ++ padded 4 year.natAbs).toList ++ rest = '+' :: ((padded 4 year.natAbs).toList ++ rest) := by simp
      have hvalue : (Numeral.digitsValue (padded 4 year.natAbs).toList : Int) = year := by
        rw [digitsValue_padded]
        omega
      rw [htext, hplus, hsigned]
      exact congrArg (fun y : Int => some (y, rest)) hvalue

theorem readDatePart?_toText (d : Date) (rest : List Char) : readDatePart? (d.toText.toList ++ rest) = some (d, rest) := by
  have hmonth : d.month < 100 := by have := d.month_range; omega
  have hday : d.day < 100 := by
    have hlast : daysIn d.year d.month ≤ 31 := by
      unfold daysIn
      repeat' split
      all_goals omega
    have := d.day_range
    omega
  have hdate : Date.of? d.year d.month d.day = some d := dif_pos ⟨d.year_range, d.month_range, d.day_range⟩
  have hdash : ∀ cs, NoDigitAhead ('-' :: cs) := fun cs c hc => by
    obtain rfl : '-' = c := Option.some.inj hc
    rfl
  have htext : d.toText.toList ++ rest = (Date.yearText d.year).toList ++ '-' :: ((padded 2 d.month).toList ++
      '-' :: ((padded 2 d.day).toList ++ rest)) := by
    simp [Date.toText]
  rw [htext, readDatePart?, readYear?_yearText d.year (hdash _)]
  simp only [Option.bind_eq_bind, Option.bind_some, readMark?, beq_self_eq_true, if_true, readField?_padded hmonth,
    readField?_padded hday, hdate]
  rfl

theorem readDate?_toText (d : Date) : readDate? d.toText.toList = some d := by
  have hpart := readDatePart?_toText d []
  rw [List.append_nil] at hpart
  rw [readDate?, hpart]
  rfl

/-! ## (3) Times -/

theorem readMinutes?_text (d : Date) {hour minute : Nat} (hhour : hour < 100) (hminute : minute < 100) (rest : List Char) :
    readMinutes? (d.toText.toList ++ 'T' :: ((padded 2 hour).toList ++ ':' :: ((padded 2 minute).toList ++ rest))) =
      some (d, hour, minute, rest) := by
  rw [readMinutes?, readDatePart?_toText]
  simp only [Option.bind_eq_bind, Option.bind_some, readMark?, beq_self_eq_true, if_true, readField?_padded hhour,
    readField?_padded hminute]
  rfl

/-- What is read behind the whole seconds is the fraction. -/
theorem readSeconds?_clockText (d : Date) (t : TimeOfDay) {rest : List Char} {nanosecond : Nat}
    (hrest : readFraction? rest = some (nanosecond, [])) (hlt : nanosecond < 1000000000) :
    readSeconds? (d.toText.toList ++ 'T' :: (t.clockText.toList ++ rest)) =
      some ⟨d, { t with nanosecond := nanosecond, nanosecond_lt := hlt }⟩ := by
  have htext : t.clockText.toList ++ rest = (padded 2 t.hour).toList ++ ':' :: ((padded 2 t.minute).toList ++
      ':' :: ((padded 2 t.second).toList ++ rest)) := by
    simp [TimeOfDay.clockText]
  have hhour : t.hour < 100 := by have := t.hour_lt; omega
  have hminute : t.minute < 100 := by have := t.minute_lt; omega
  have hsecond : t.second < 100 := by have := t.second_le; omega
  have htime : TimeOfDay.of? t.hour t.minute t.second nanosecond =
      some { t with nanosecond := nanosecond, nanosecond_lt := hlt } :=
    dif_pos ⟨t.hour_lt, t.minute_lt, t.second_le, hlt⟩
  rw [htext, readSeconds?, readMinutes?_text d hhour hminute]
  simp only [Option.bind_eq_bind, Option.bind_some, readMark?, beq_self_eq_true, if_true, readField?_padded hsecond,
    hrest, htime]
  rfl

theorem readFraction?_padded {width count : Nat} (hwidth : 0 < width ∧ width ≤ 9) (h : count < 10 ^ width) :
    readFraction? ('.' :: (padded width count).toList) = some (count * 10 ^ (9 - width), []) := by
  have hlength : (padded width count).toList.length = width := length_padded hwidth.1 h
  have hread : readDigits? 9 (padded width count).toList = some ((padded width count).toList, []) := by
    have happend := @readDigits?_append 9 (padded width count).toList [] (fun _ => isDigit_of_mem_padded)
      (padded_ne_nil _ _) (Nat.le_trans (Nat.le_of_eq hlength) hwidth.2) (.inr nofun)
    rwa [List.append_nil] at happend
  rw [readFraction?, hread]
  show some (Numeral.digitsValue (padded width count).toList * Nat.pow 10 (9 - (padded width count).toList.length), []) = _
  rw [digitsValue_padded, hlength]
  rfl

theorem readFraction?_fractionText {nanosecond : Nat} (h : nanosecond < 1000000000) :
    readFraction? (TimeOfDay.fractionText nanosecond).toList = some (nanosecond, []) := by
  have hread : ∀ width count, 0 < width ∧ width ≤ 9 → count < 10 ^ width →
      readFraction? ("." ++ padded width count).toList = some (count * 10 ^ (9 - width), []) := by
    intro width count hwidth hcount
    rw [String.toList_append]
    exact readFraction?_padded hwidth hcount
  unfold TimeOfDay.fractionText
  split
  · next hzero => rw [hzero]; rfl
  · split
    · next hmillis =>
      rw [hread 3 _ (by decide) (by omega)]
      exact congrArg (fun n => some (n, [])) (by omega)
    · split
      · next hmicros =>
        rw [hread 6 _ (by decide) (by omega)]
        exact congrArg (fun n => some (n, [])) (by omega)
      · rw [hread 9 _ (by decide) h]
        exact congrArg (fun n => some (n, [])) (by omega)

theorem readDateTime?_clockText (t : DateTime) {fraction : String} {nanosecond : Nat}
    (hfraction : readFraction? fraction.toList = some (nanosecond, [])) (hlt : nanosecond < 1000000000) :
    readDateTime? (t.date.toText ++ "T" ++ (t.time.clockText ++ fraction)).toList =
      some ⟨t.date, { t.time with nanosecond := nanosecond, nanosecond_lt := hlt }⟩ := by
  have htext : (t.date.toText ++ "T" ++ (t.time.clockText ++ fraction)).toList =
      t.date.toText.toList ++ 'T' :: (t.time.clockText.toList ++ fraction.toList) := by
    simp
  rw [htext, readDateTime?, readSeconds?_clockText t.date t.time hfraction hlt, Option.some_or]

end Calendar

/-- The start of the second that a date and time lies in. -/
def DateTime.wholeSecond (t : DateTime) : DateTime :=
  { t with time := { t.time with nanosecond := 0, nanosecond_lt := Nat.lt_of_le_of_lt (Nat.zero_le _) t.time.nanosecond_lt } }

theorem DateTime.wholeSecond_eq_iff (t : DateTime) : t.wholeSecond = t ↔ t.time.nanosecond = 0 := by
  constructor
  · intro h
    exact (congrArg (fun t : DateTime => t.time.nanosecond) h).symm
  · intro h
    obtain ⟨date, hour, minute, second, nanosecond, _, _, _, _⟩ := t
    obtain rfl : nanosecond = 0 := h
    rfl

namespace Calendar

theorem readDateTime?_isoText (t : DateTime) : readDateTime? t.isoText.toList = some t :=
  readDateTime?_clockText t (readFraction?_fractionText t.time.nanosecond_lt) t.time.nanosecond_lt

theorem readDateTime?_wholeSecondText (t : DateTime) : readDateTime? t.wholeSecondText.toList = some t.wholeSecond := by
  have hread := @readDateTime?_clockText t "" 0 rfl (by decide)
  rwa [String.append_empty] at hread

/-! ## (4) Conversion -/

def NoBlank (text : String) : Prop := ∀ c ∈ text.toList, Text.isBlank c = false

instance (text : String) : Decidable (NoBlank text) := List.decidableBAll _ _

theorem NoBlank.append {a b : String} (ha : NoBlank a) (hb : NoBlank b) : NoBlank (a ++ b) := by
  intro c hc
  rw [String.toList_append] at hc
  exact (List.mem_append.mp hc).elim (ha c) (hb c)

theorem noBlank_padded (width n : Nat) : NoBlank (padded width n) :=
  fun _ hc => Text.not_blank_of_isDigit (isDigit_of_mem_padded hc)

theorem noBlank_dateText (d : Date) : NoBlank d.toText := by
  have hyear : NoBlank (Date.yearText d.year) := by
    unfold Date.yearText
    split
    · exact noBlank_padded 4 _
    · refine .append ?_ (noBlank_padded 4 _)
      split <;> decide
  have hdash : NoBlank "-" := by decide
  exact (((hyear.append hdash).append (noBlank_padded 2 _)).append hdash).append (noBlank_padded 2 _)

theorem noBlank_clockText (t : TimeOfDay) : NoBlank t.clockText := by
  have hcolon : NoBlank ":" := by decide
  exact ((((noBlank_padded 2 _).append hcolon).append (noBlank_padded 2 _)).append hcolon).append (noBlank_padded 2 _)

theorem noBlank_fractionText (nanosecond : Nat) : NoBlank (TimeOfDay.fractionText nanosecond) := by
  have hpoint : NoBlank "." := by decide
  unfold TimeOfDay.fractionText
  repeat' split
  · decide
  all_goals exact hpoint.append (noBlank_padded _ _)

theorem noBlank_wholeSecondText (t : DateTime) : NoBlank t.wholeSecondText :=
  ((noBlank_dateText t.date).append (by decide)).append (noBlank_clockText t.time)

theorem noBlank_isoText (t : DateTime) : NoBlank t.isoText :=
  ((noBlank_dateText t.date).append (by decide)).append ((noBlank_clockText t.time).append (noBlank_fractionText _))

end Calendar

namespace Converter

open Calendar (NoBlank)

theorem standard_of_convert? {name : String} {kind : TargetType} {v converted : Value}
    (hname : TargetType.ofName? name = some kind) (h : kind.convert? v = some converted) : standard v name = .ok converted := by
  rw [standard, hname, Option.bind_some, h]

theorem standard_date {name text : String} (hname : TargetType.ofName? name = some .date) (hblank : NoBlank text) {d : Date}
    (h : Calendar.readDate? text.toList = some d) : standard (.string text) name = .ok (.date d) := by
  refine standard_of_convert? hname ?_
  show (Calendar.readDate? (Text.trim text.toList)).map Value.date = _
  rw [Text.trim_of_not_blank hblank, h]
  rfl

theorem standard_dateTime {name text : String} (hname : TargetType.ofName? name = some .dateTime) (hblank : NoBlank text)
    {t : DateTime} (h : Calendar.readDateTime? text.toList = some t) : standard (.string text) name = .ok (.dateTime t) := by
  refine standard_of_convert? hname ?_
  show (Calendar.readDateTime? (Text.trim text.toList)).map Value.dateTime = _
  rw [Text.trim_of_not_blank hblank, h]
  rfl

end Converter

/-- A date is written to JSON as a text that is converted back to the date. A date and
    time is written as a text that is converted to the start of its second, in a leap
    second too, so it comes back just when it has no fraction. Its full text would be
    converted back to it. -/
theorem Value.dates_read_back (d : Date) (t : DateTime) {dateType timeType : String}
    (hdate : TargetType.ofName? dateType = some .date) (htime : TargetType.ofName? timeType = some .dateTime) :
    (∃ text, (Value.date d).toJson = .string text) ∧
    (∃ text, (Value.dateTime t).toJson = .string text) ∧
    Converter.standard (ofJson (Value.date d).toJson) dateType = .ok (.date d) ∧
    Converter.standard (ofJson (Value.dateTime t).toJson) timeType = .ok (.dateTime t.wholeSecond) ∧
    (Converter.standard (ofJson (Value.dateTime t).toJson) timeType = .ok (.dateTime t) ↔ t.time.nanosecond = 0) ∧
    Converter.standard (.string t.isoText) timeType = .ok (.dateTime t) := by
  have hwhole : Converter.standard (ofJson (Value.dateTime t).toJson) timeType = .ok (.dateTime t.wholeSecond) :=
    Converter.standard_dateTime htime (Calendar.noBlank_wholeSecondText t) (Calendar.readDateTime?_wholeSecondText t)
  refine ⟨⟨_, rfl⟩, ⟨_, rfl⟩, ?_, hwhole, ?_, ?_⟩
  · exact Converter.standard_date hdate (Calendar.noBlank_dateText d) (Calendar.readDate?_toText d)
  · rw [hwhole, ← t.wholeSecond_eq_iff]
    exact ⟨fun h => Value.dateTime.inj (Except.ok.inj h), fun h => by rw [h]⟩
  · exact Converter.standard_dateTime htime (Calendar.noBlank_isoText t) (Calendar.readDateTime?_isoText t)

/-- The last day there is, and a leap second. -/
theorem Value.dates_read_back_leap :
    let d : Date := ⟨262142, 12, 31, by decide, by decide, by decide⟩
    let t : DateTime := ⟨⟨-44, 3, 15, by decide, by decide, by decide⟩, ⟨23, 59, 60, 0, by decide, by decide, by decide, by decide⟩⟩
    TargetType.ofName? "java.time.LocalDate" = some .date ∧ TargetType.ofName? "LocalDateTime" = some .dateTime ∧
      Converter.standard (ofJson (Value.date d).toJson) "java.time.LocalDate" = .ok (.date d) ∧
      Converter.standard (ofJson (Value.dateTime t).toJson) "LocalDateTime" = .ok (.dateTime t) := by
  intro d t
  have hdate : TargetType.ofName? "java.time.LocalDate" = some .date := by decide
  have htime : TargetType.ofName? "LocalDateTime" = some .dateTime := by decide
  obtain ⟨-, -, hd, -, ht, -⟩ := dates_read_back d t hdate htime
  exact ⟨hdate, htime, hd, ht.mpr rfl⟩

/-- A time with half a second, which is not written. -/
theorem Value.fraction_not_written :
    let t : DateTime := ⟨⟨2018, 1, 10, by decide, by decide, by decide⟩,
      ⟨10, 15, 30, 500000000, by decide, by decide, by decide, by decide⟩⟩
    (Value.dateTime t).toJson = .string "2018-01-10T10:15:30" ∧ t.isoText = "2018-01-10T10:15:30.500" ∧
      Converter.standard (ofJson (Value.dateTime t).toJson) "LocalDateTime" ≠ .ok (.dateTime t) := by
  intro t
  have htime : TargetType.ofName? "LocalDateTime" = some .dateTime := by decide
  have hwhole : Converter.standard (ofJson (Value.dateTime t).toJson) "LocalDateTime" = .ok (.dateTime t.wholeSecond) :=
    Converter.standard_dateTime htime (Calendar.noBlank_wholeSecondText t) (Calendar.readDateTime?_wholeSecondText t)
  have htext : t.wholeSecondText = "2018-01-10T10:15:30" := by decide
  refine ⟨congrArg Json.string htext, by decide, fun h => ?_⟩
  rw [hwhole] at h
  exact absurd (t.wholeSecond_eq_iff.mp (Value.dateTime.inj (Except.ok.inj h))) (by decide)

end EntityQuery
