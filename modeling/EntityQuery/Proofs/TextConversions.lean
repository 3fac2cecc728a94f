/-
  EntityQuery.Proofs.TextConversions — values converted to texts, and the texts back
  (`Converter.texts_read_back`).

  (1) Numbers. An integer is spelled by its text, and a decimal is read from its text,
  scale and all, but for the sign of a zero.

  (2) Dates and times. A date is read from its text. The text of a date and time has a
  space between its parts, where the reader asks for a T, so it is never read
  (`Calendar.readDateTime?_toText`).

  (3) Conversion. So every value of these kinds but a date and time comes back from its
  text.
-/

import EntityQuery.Proofs.Conversions
import EntityQuery.Proofs.Number.DecimalText

namespace EntityQuery

open Calendar (NoBlank)

/-! ## (1) Numbers -/

theorem Numeral.isDigits_toDigits (n : Nat) : IsDigits (Nat.toDigits 10 n) :=
  ⟨Nat.toDigits_ne_nil, fun _ hc => Nat.isDigit_of_mem_toDigits (by decide) (by decide) hc⟩

theorem Numeral.whole_toString (n : Int) : Whole (toString n).toList n := by
  cases n with
  | ofNat n =>
    have hwhole := Whole.bare (isDigits_toDigits n)
    rw [Nat.ofDigitChars_ten_toDigits] at hwhole
    rw [toList_toString_ofNat]
    exact hwhole
  | negSucc n =>
    have hwhole := Whole.minus (isDigits_toDigits (n + 1))
    rw [Nat.ofDigitChars_ten_toDigits] at hwhole
    rw [toList_toString_negSucc]
    exact hwhole

theorem Value.denotes_toText (n : Int64) : (Value.string (Value.integer n).toText).Denotes n.toInt := by
  have htext : (Value.integer n).toText.toList = [] ++ ((toString n.toInt).toList ++ []) := by
    rw [List.nil_append, List.append_nil]
    rfl
  exact .text htext nofun nofun (Numeral.whole_toString n.toInt)

theorem Decimal.noBlank_toText (d : Decimal) : NoBlank d.toText := by
  intro c hc
  rcases mem_toText hc with rfl | rfl | hdigit
  · decide
  · decide
  · exact Text.not_blank_of_isDigit hdigit

/-! ## (2) Dates and times -/

namespace Calendar

theorem readDateTime?_behind_space (d : Date) (rest : List Char) : readDateTime? (d.toText.toList ++ ' ' :: rest) = none := by
  have hminutes : readMinutes? (d.toText.toList ++ ' ' :: rest) = none := by
    rw [readMinutes?, readDatePart?_toText]
    rfl
  rw [readDateTime?, readSeconds?, readWholeMinutes?, hminutes]
  rfl

theorem toText_ne_nil (d : Date) : d.toText.toList ≠ [] := by
  intro hnil
  have hread := readDate?_toText d
  rw [hnil] at hread
  cases hread

theorem clockText_ne_nil (t : TimeOfDay) : t.clockText.toList ≠ [] := by
  simp [TimeOfDay.clockText]

/-- The blank inside a text is not trimmed off, so it is met where a T is asked for. -/
theorem readDateTime?_toText (t : DateTime) : readDateTime? (Text.trim t.toText.toList) = none := by
  have htext : t.toText.toList = t.date.toText.toList ++ ' ' :: t.time.toText.toList := by
    simp [DateTime.toText]
  have htime : NoBlank t.time.toText := (noBlank_clockText t.time).append (noBlank_fractionText _)
  have htimeNe : t.time.toText.toList ≠ [] := by
    rw [TimeOfDay.toText, String.toList_append]
    exact List.append_ne_nil_of_left_ne_nil (clockText_ne_nil t.time) _
  have hfirst : ∀ c ∈ t.toText.toList.head?, Text.isBlank c = false := by
    rw [htext, List.head?_append_of_ne_nil _ (toText_ne_nil t.date)]
    exact fun c hc => noBlank_dateText t.date c (List.mem_of_mem_head? hc)
  have hlast : ∀ c ∈ t.toText.toList.getLast?, Text.isBlank c = false := by
    rw [htext, List.getLast?_append_of_ne_nil _ (List.cons_ne_nil _ _), List.getLast?_cons_of_ne_nil htimeNe]
    exact fun c hc => htime c (List.mem_of_mem_getLast? hc)
  rw [Text.trim_of_ends hfirst hlast, htext, readDateTime?_behind_space]

end Calendar

/-! ## (3) Conversion -/

namespace Converter

/-- A value is converted to its text, and from there to a named type with this outcome. -/
def ThroughText (v : Value) (name : String) (outcome : Except QueryError Value) : Prop :=
  standard v "String" = .ok (.string v.toText) ∧ standard (.string v.toText) name = outcome

theorem standard_string {v : Value} (h : v.toString? = some (.string v.toText)) :
    standard v "String" = .ok (.string v.toText) :=
  standard_of_convert? (by decide : TargetType.ofName? "String" = some .string) h

theorem throughText_of_convert? {v : Value} {name : String} {kind : TargetType} {w : Value}
    (htext : v.toString? = some (.string v.toText)) (hname : TargetType.ofName? name = some kind)
    (h : kind.convert? (.string v.toText) = some w) : ThroughText v name (.ok w) :=
  ⟨standard_string htext, standard_of_convert? hname h⟩

theorem throughText_integer (n : Int64) : ThroughText (.integer n) "Long" (.ok (.integer n)) := by
  refine throughText_of_convert? rfl (by decide : TargetType.ofName? "Long" = some .long) ?_
  have hwhole : (Value.string (Value.integer n).toText).whole? = some n.toInt :=
    (Value.whole?_eq_some_iff _ _).mpr (Value.denotes_toText n)
  exact (Value.toWhole?_eq_some_iff (by decide : 64 ≤ 64)).mpr ⟨n, rfl, hwhole, n.le_toInt, n.toInt_lt⟩

theorem throughText_boolean (b : Bool) : ThroughText (.boolean b) "Boolean" (.ok (.boolean b)) := by
  refine throughText_of_convert? rfl (by decide : TargetType.ofName? "Boolean" = some .boolean) ?_
  -- neither word has a letter to lower
  have hlower : ∀ word : String, word.toList.map Char.toLower = word.toList → word.toLower = word := by
    intro word hword
    apply String.toList_injective
    show (String.map Char.toLower word).toList = word.toList
    rw [String.toList_map, hword]
  have htrue : "true".toLower = "true" := hlower "true" (by decide)
  have hfalse : "false".toLower = "false" := hlower "false" (by decide)
  cases b with
  | true =>
    show Value.toBoolean? (.string "true") = some (.boolean true)
    simp [Value.toBoolean?, htrue]
  | false =>
    show Value.toBoolean? (.string "false") = some (.boolean false)
    simp [Value.toBoolean?, hfalse]

theorem throughText_decimal (d : Decimal) : ThroughText (.decimal d) "BigDecimal" (.ok (.decimal d.unsignedZero)) := by
  refine throughText_of_convert? rfl (by decide : TargetType.ofName? "BigDecimal" = some .decimal) ?_
  show (Decimal.read? (Text.trim d.toText.toList)).map Value.decimal = some (.decimal d.unsignedZero)
  rw [Text.trim_of_not_blank d.noBlank_toText, d.read?_toText]
  rfl

theorem throughText_date (d : Date) : ThroughText (.date d) "LocalDate" (.ok (.date d)) :=
  ⟨standard_string rfl, standard_date (by decide) (Calendar.noBlank_dateText d) (Calendar.readDate?_toText d)⟩

theorem throughText_dateTime (t : DateTime) :
    ThroughText (.dateTime t) "LocalDateTime" (.error (.conversion ("\"" ++ t.toText ++ "\"") "LocalDateTime")) := by
  refine ⟨standard_string rfl, ?_⟩
  have hname : TargetType.ofName? "LocalDateTime" = some .dateTime := by decide
  have hnone : TargetType.dateTime.convert? (.string t.toText) = none := by
    show (Calendar.readDateTime? (Text.trim t.toText.toList)).map Value.dateTime = none
    rw [Calendar.readDateTime?_toText]
    rfl
  show standard (.string t.toText) "LocalDateTime" = _
  rw [standard, hname, Option.bind_some, hnone]
  rfl

/-- An integer, a boolean and a date are converted to texts that are converted back to
    them. A decimal comes back with its scale, and with its sign unless it is a negative
    zero. The text of a date and time is no text of a date and time to the reader; with a
    T for its space it would be read. -/
theorem texts_read_back (n : Int64) (b : Bool) (d : Decimal) (day : Date) (t : DateTime) :
    ThroughText (.integer n) "Long" (.ok (.integer n)) ∧
    ThroughText (.boolean b) "Boolean" (.ok (.boolean b)) ∧
    (ThroughText (.decimal d) "BigDecimal" (.ok (.decimal d.unsignedZero)) ∧
      (Value.decimal d).same (.decimal d.unsignedZero) = true ∧
      (d.unsignedZero = d ↔ ¬ (d.mantissa = 0 ∧ d.negative = true))) ∧
    ThroughText (.date day) "LocalDate" (.ok (.date day)) ∧
    ThroughText (.dateTime t) "LocalDateTime" (.error (.conversion ("\"" ++ t.toText ++ "\"") "LocalDateTime")) ∧
    standard (.string t.isoText) "LocalDateTime" = .ok (.dateTime t) := by
  have hsame : (Value.decimal d).same (.decimal d.unsignedZero) = true :=
    beq_iff_eq.mpr (Decimal.compare_eq_eq.mpr d.value_unsignedZero.symm)
  have hiso : standard (.string t.isoText) "LocalDateTime" = .ok (.dateTime t) :=
    standard_dateTime (by decide) (Calendar.noBlank_isoText t) (Calendar.readDateTime?_isoText t)
  exact ⟨throughText_integer n, throughText_boolean b, ⟨throughText_decimal d, hsame, d.unsignedZero_eq_iff⟩,
    throughText_date day, throughText_dateTime t, hiso⟩

/-- A time of day in the middle of the morning, which does not come back. -/
theorem dateTime_text_not_read :
    let t : DateTime := ⟨⟨2018, 1, 10, by decide, by decide, by decide⟩,
      ⟨10, 15, 30, 0, by decide, by decide, by decide, by decide⟩⟩
    standard (.dateTime t) "String" = .ok (.string "2018-01-10 10:15:30") ∧
      standard (.string "2018-01-10 10:15:30") "LocalDateTime" =
        .error (.conversion "\"2018-01-10 10:15:30\"" "LocalDateTime") ∧
      standard (.string "2018-01-10 10:15:30") "LocalDateTime" ≠ .ok (.dateTime t) := by
  intro t
  have htext : t.toText = "2018-01-10 10:15:30" := by decide
  have hquoted : "\"" ++ "2018-01-10 10:15:30" ++ "\"" = "\"2018-01-10 10:15:30\"" := by decide
  have hvalueText : (Value.dateTime t).toText = "2018-01-10 10:15:30" := htext
  obtain ⟨hto, hback⟩ := throughText_dateTime t
  rw [hvalueText] at hto hback
  rw [htext, hquoted] at hback
  refine ⟨hto, hback, ?_⟩
  rw [hback]
  exact nofun

end Converter

end EntityQuery
