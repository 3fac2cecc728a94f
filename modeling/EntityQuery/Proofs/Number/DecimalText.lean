/-
  EntityQuery.Proofs.Number.DecimalText — a decimal is read from its own text
  (`Decimal.read?_toText`).

  (1) Reading. A run of digits that the mantissa and the scale have room for is read as
  it stands; no digit of it is rounded away (`Decimal.readDigits?_run`).

  (2) Writing. A text has a digit before its point and as many behind it as the scale
  says, and together they are the digits of the mantissa (`Decimal.exists_digits`). So
  mantissa and scale come back, and so does the sign, unless it is the sign of a zero.
-/

import EntityQuery.Proofs.Number.Whole

namespace EntityQuery.Decimal

/-! ## (1) Reading -/

theorem le_ofDigitChars (ds : List Char) (n : Nat) : n ≤ Nat.ofDigitChars 10 ds n := by
  rw [Nat.ofDigitChars_eq_ofDigitChars_zero]
  exact (Nat.le_mul_of_pos_left n (Nat.pow_pos (by decide))).trans (Nat.le_add_right _ _)

section Run

variable {negative point some : Bool} {mantissa scale : Nat}

theorem readDigits?_digit {c : Char} (hc : c.isDigit = true) (cs : List Char)
    (hfits : 10 * mantissa + Numeral.digitValue c < mantissaBound) (hscale : point = true → scale < 28) :
    readDigits? negative mantissa scale point some (c :: cs) =
      readDigits? negative (10 * mantissa + Numeral.digitValue c) (if point then scale + 1 else 0) point true cs := by
  have hunderscore : (c == '_') = false := by
    rw [beq_eq_false_iff_ne]
    rintro rfl
    cases hc
  have hroom : (point && decide (scale ≥ 28)) = false := by
    cases point with
    | false => rfl
    | true => simpa using hscale rfl
  rw [readDigits?]
  simp only [hunderscore, hroom, hc, hfits, if_true, if_false, Bool.false_eq_true]

/-- Digits before the point leave the scale at zero; each behind it adds one. -/
theorem readDigits?_run {ds : List Char} (hds : ∀ c ∈ ds, c.isDigit = true) (rest : List Char)
    (hfits : Nat.ofDigitChars 10 ds mantissa < mantissaBound) (hwhole : point = false → scale = 0)
    (hplaces : point = true → scale + ds.length ≤ 28) :
    readDigits? negative mantissa scale point some (ds ++ rest) =
      readDigits? negative (Nat.ofDigitChars 10 ds mantissa) (if point then scale + ds.length else 0) point
        (some || !ds.isEmpty) rest := by
  induction ds generalizing mantissa scale some with
  | nil =>
    cases point with
    | false => simp [hwhole rfl]
    | true => simp
  | cons c ds ih =>
    have hrest : ∀ d ∈ ds, d.isDigit = true := fun d hd => hds d (List.mem_cons_of_mem c hd)
    have hnext : 10 * mantissa + Numeral.digitValue c < mantissaBound :=
      Nat.lt_of_le_of_lt (le_ofDigitChars ds _) hfits
    cases point with
    | false =>
      rw [List.cons_append, readDigits?_digit (hds c List.mem_cons_self) _ hnext (by simp)]
      refine (ih hrest hfits (fun _ => rfl) (by simp)).trans ?_
      simp [Nat.ofDigitChars_cons]
    | true =>
      have hroom : scale + 1 + ds.length ≤ 28 := by
        have hall := hplaces rfl
        rw [List.length_cons] at hall
        omega
      rw [List.cons_append, readDigits?_digit (hds c List.mem_cons_self) _ hnext (fun _ => by omega)]
      refine (ih hrest hfits (by simp) fun _ => hroom).trans ?_
      simp [Nat.ofDigitChars_cons, Nat.add_assoc, Nat.add_comm 1]

end Run

/-! ## (2) Writing -/

/-- The decimal with the sign of a zero taken off. -/
def unsignedZero (d : Decimal) : Decimal := { d with negative := d.negative && d.mantissa != 0 }

theorem unsignedZero_eq_iff (d : Decimal) : d.unsignedZero = d ↔ ¬ (d.mantissa = 0 ∧ d.negative = true) := by
  obtain ⟨negative, mantissa, scale, hmantissa, hscale⟩ := d
  cases negative <;> simp [unsignedZero]

theorem value_unsignedZero (d : Decimal) : d.unsignedZero.value = d.value := by
  have hnumerator : d.unsignedZero.numerator = d.numerator := by
    simp only [numerator, unsignedZero]
    by_cases hzero : d.mantissa = 0
    · simp [hzero]
    · simp [hzero]
  rw [value, value, hnumerator]
  rfl

theorem finish?_eq (d : Decimal) : finish? d.negative d.mantissa d.scale = some d.unsignedZero :=
  dif_pos ⟨d.mantissa_lt, d.scale_le⟩

/-- A text has all digits of the mantissa, and as many behind the point as the scale says. -/
theorem exists_digits (d : Decimal) :
    ∃ whole fraction, d.magnitudeText = whole ++ (if d.scale = 0 then [] else '.' :: fraction) ∧
      Numeral.IsDigits whole ∧ (∀ c ∈ fraction, c.isDigit = true) ∧ fraction.length = d.scale ∧
      Nat.ofDigitChars 10 (whole ++ fraction) 0 = d.mantissa := by
  let padded := List.replicate (d.scale + 1 - (Nat.toDigits 10 d.mantissa).length) '0' ++ Nat.toDigits 10 d.mantissa
  have hdigits : ∀ c ∈ padded, c.isDigit = true := by
    intro c hc
    rcases List.mem_append.mp hc with hzero | hdigit
    · rw [List.eq_of_mem_replicate hzero]
      rfl
    · exact Nat.isDigit_of_mem_toDigits (by decide) (by decide) hdigit
  have hlength : d.scale < padded.length := by
    simp only [padded, List.length_append, List.length_replicate]
    omega
  have hvalue : Nat.ofDigitChars 10 padded 0 = d.mantissa := by
    rw [Nat.ofDigitChars_append, Nat.ofDigitChars_replicate_zero, Nat.mul_zero, Nat.ofDigitChars_ten_toDigits]
  refine ⟨padded.take (padded.length - d.scale), padded.drop (padded.length - d.scale), ?_, ⟨?_, ?_⟩, ?_, ?_, ?_⟩
  · unfold magnitudeText
    by_cases hscale : d.scale = 0
    · simp only [hscale, if_true, Nat.sub_zero, List.append_nil, List.take_length, padded]
    · simp only [hscale, if_false]
      rfl
  · intro hnil
    have hnone := congrArg List.length hnil
    simp only [List.length_take, List.length_nil] at hnone
    omega
  · exact fun c hc => hdigits c (List.mem_of_mem_take hc)
  · exact fun c hc => hdigits c (List.mem_of_mem_drop hc)
  · rw [List.length_drop]
    omega
  · rw [List.take_append_drop, hvalue]

theorem readDigits?_magnitudeText (d : Decimal) :
    readDigits? d.negative 0 0 false false d.magnitudeText = some d.unsignedZero := by
  obtain ⟨whole, fraction, htext, hwhole, hfraction, hlength, hvalue⟩ := d.exists_digits
  rw [Nat.ofDigitChars_append] at hvalue
  have hfits : Nat.ofDigitChars 10 whole 0 < mantissaBound :=
    Nat.lt_of_le_of_lt (le_ofDigitChars fraction _) (hvalue ▸ d.mantissa_lt)
  have hwholeRead : ∀ rest, readDigits? d.negative 0 0 false false (whole ++ rest) =
      readDigits? d.negative (Nat.ofDigitChars 10 whole 0) 0 false true rest := by
    intro rest
    have hsome : (!whole.isEmpty) = true := by simpa using hwhole.1
    rw [readDigits?_run hwhole.2 rest hfits (fun _ => rfl) (by simp), hsome]
    rfl
  rw [htext, hwholeRead]
  by_cases hscale : d.scale = 0
  · obtain rfl : fraction = [] := List.length_eq_zero_iff.mp (hlength.trans hscale)
    rw [Nat.ofDigitChars_nil] at hvalue
    rw [if_pos hscale, hvalue, ← finish?_eq, hscale]
    rfl
  · have hplaces : 0 + fraction.length ≤ 28 := by
      rw [Nat.zero_add, hlength]
      exact d.scale_le
    have hfractionRead : readDigits? d.negative (Nat.ofDigitChars 10 whole 0) 0 true true (fraction ++ []) =
        finish? d.negative d.mantissa d.scale := by
      rw [readDigits?_run hfraction [] (hvalue.symm ▸ d.mantissa_lt) (by simp) (fun _ => hplaces), hvalue, if_pos rfl,
        Nat.zero_add, hlength]
      rfl
    rw [if_neg hscale, ← finish?_eq, ← hfractionRead, List.append_nil]
    rfl

/-- The characters of a text: a sign, digits and a point. -/
theorem mem_toText {d : Decimal} {c : Char} (h : c ∈ d.toText.toList) : c = '-' ∨ c = '.' ∨ c.isDigit = true := by
  obtain ⟨whole, fraction, htext, hwhole, hfraction, -⟩ := d.exists_digits
  rw [toText, String.toList_ofList, htext] at h
  rcases List.mem_append.mp h with hsign | hmagnitude
  · split at hsign
    · exact .inl (List.mem_singleton.mp hsign)
    · cases hsign
  · rcases List.mem_append.mp hmagnitude with hc | hc
    · exact .inr (.inr (hwhole.2 c hc))
    · split at hc
      · cases hc
      · rcases List.mem_cons.mp hc with rfl | hc
        · exact .inr (.inl rfl)
        · exact .inr (.inr (hfraction c hc))

theorem readPlain?_of_splitSign {cs body : List Char} {negative : Bool} (h : Numeral.splitSign cs = (negative, body)) :
    readPlain? cs = readDigits? negative 0 0 false false body := by
  unfold readPlain?
  rw [h]

/-- A decimal is read from its text, but the sign of a zero is not. -/
theorem read?_toText (d : Decimal) : read? d.toText.toList = some d.unsignedZero := by
  have hsign : Numeral.splitSign d.toText.toList = (d.negative, d.magnitudeText) := by
    rw [toText, String.toList_ofList]
    cases hnegative : d.negative with
    | true => rfl
    | false =>
      show Numeral.splitSign d.magnitudeText = (false, d.magnitudeText)
      refine Numeral.splitSign_of_isDigit ?_
      obtain ⟨whole, fraction, htext, hwhole, -⟩ := d.exists_digits
      rw [htext, List.head?_append_of_ne_nil whole hwhole.1]
      exact fun c hc => hwhole.2 c (List.mem_of_mem_head? hc)
  rw [read?, readPlain?_of_splitSign hsign, readDigits?_magnitudeText, Option.some_or]

end EntityQuery.Decimal
