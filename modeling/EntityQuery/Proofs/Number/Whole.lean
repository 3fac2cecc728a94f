/-
  EntityQuery.Proofs.Number.Whole — which whole number a numeral, a float or a decimal
  is, if it is one.

  (1) Numerals. `Numeral.Whole` says which texts spell a whole number and which number
  that is. They are the texts that are read, with blanks around them too
  (`Numeral.readInt?_eq_some_iff`, `Numeral.readInt?_trim_iff`).

  (2) Quotients. A quotient of naturals is whole exactly if nothing remains of the
  division. So a float and a decimal give a whole number exactly if the rational number
  that they are is this one (`Binary64.toInt?_eq_some_iff`, `Decimal.toInt?_eq_some_iff`).
-/

import EntityQuery.Conversion
import EntityQuery.Proofs.Number.Conversion
import EntityQuery.Proofs.Trimming

namespace EntityQuery

/-! ## (1) Numerals -/

namespace Numeral

/-- One or more digits. -/
def IsDigits (ds : List Char) : Prop := ds ≠ [] ∧ ∀ c ∈ ds, c.isDigit = true

/-- An optional sign and one or more digits, and the whole number that they spell. -/
inductive Whole : List Char → Int → Prop
  | bare {ds : List Char} : IsDigits ds → Whole ds (Nat.ofDigitChars 10 ds 0)
  | plus {ds : List Char} : IsDigits ds → Whole ('+' :: ds) (Nat.ofDigitChars 10 ds 0)
  | minus {ds : List Char} : IsDigits ds → Whole ('-' :: ds) (-(Nat.ofDigitChars 10 ds 0 : Int))

theorem splitSign_cases (cs : List Char) :
    (∃ rest, cs = '-' :: rest ∧ splitSign cs = (true, rest)) ∨
      (∃ rest, cs = '+' :: rest ∧ splitSign cs = (false, rest)) ∨ splitSign cs = (false, cs) := by
  fun_cases splitSign cs with
  | case1 rest => exact .inl ⟨rest, rfl, rfl⟩
  | case2 rest => exact .inr (.inl ⟨rest, rfl, rfl⟩)
  | case3 => exact .inr (.inr rfl)

/-- Nothing is taken off a text that starts with a digit. -/
theorem splitSign_of_isDigit {cs : List Char} (h : ∀ c ∈ cs.head?, c.isDigit = true) : splitSign cs = (false, cs) := by
  rcases splitSign_cases cs with ⟨rest, rfl, -⟩ | ⟨rest, rfl, -⟩ | hsign
  · exact absurd (h '-' rfl) (by decide)
  · exact absurd (h '+' rfl) (by decide)
  · exact hsign

/-- What is read behind a sign, or behind none. -/
theorem readInt?_of_splitSign {cs ds : List Char} {negative : Bool} (h : splitSign cs = (negative, ds)) {n : Int} :
    readInt? cs = some n ↔
      IsDigits ds ∧ (if negative then -(Nat.ofDigitChars 10 ds 0 : Int) else Nat.ofDigitChars 10 ds 0) = n := by
  have hdigits : (ds.isEmpty || !ds.all Char.isDigit) = false ↔ IsDigits ds := by
    simp [IsDigits]
  unfold readInt?
  rw [h]
  by_cases hds : IsDigits ds
  · simp only [hdigits.mpr hds, Bool.false_eq_true, if_false, Option.some.injEq, hds, true_and]
    rfl
  · simp only [Bool.of_not_eq_false (mt hdigits.mp hds), if_true, hds, false_and, reduceCtorEq]

theorem readInt?_eq_some_iff {cs : List Char} {n : Int} : readInt? cs = some n ↔ Whole cs n := by
  constructor
  · intro h
    cases hsplit : splitSign cs with
    | mk negative ds =>
      obtain ⟨hds, rfl⟩ := (readInt?_of_splitSign hsplit).mp h
      rcases splitSign_cases cs with ⟨rest, rfl, hsign⟩ | ⟨rest, rfl, hsign⟩ | hsign
      · cases hsign.symm.trans hsplit
        exact .minus hds
      · cases hsign.symm.trans hsplit
        exact .plus hds
      · cases hsign.symm.trans hsplit
        exact .bare hds
  · intro h
    cases h with
    | bare hds =>
      have hfirst := splitSign_of_isDigit fun c hc => hds.2 c (List.mem_of_mem_head? hc)
      exact (readInt?_of_splitSign hfirst).mpr ⟨hds, rfl⟩
    | plus hds => exact (readInt?_of_splitSign rfl).mpr ⟨hds, rfl⟩
    | minus hds => exact (readInt?_of_splitSign rfl).mpr ⟨hds, rfl⟩

theorem toList_toString_ofNat (n : Nat) : (toString (Int.ofNat n)).toList = Nat.toDigits 10 n := by
  show (toString n).toList = Nat.toDigits 10 n
  rw [Nat.toString_eq_ofList_toDigits, String.toList_ofList]

theorem toList_toString_negSucc (n : Nat) : (toString (Int.negSucc n)).toList = '-' :: Nat.toDigits 10 (n + 1) := by
  show ("-" ++ toString (n + 1)).toList = '-' :: Nat.toDigits 10 (n + 1)
  rw [Nat.toString_eq_ofList_toDigits]
  simp

theorem Whole.not_blank {cs : List Char} {n : Int} (h : Whole cs n) : ∀ c ∈ cs, Text.isBlank c = false := by
  have hdigits : ∀ ds, IsDigits ds → ∀ c ∈ ds, Text.isBlank c = false :=
    fun ds hds c hc => Text.not_blank_of_isDigit (hds.2 c hc)
  cases h with
  | bare hds => exact hdigits _ hds
  | plus hds => exact List.forall_mem_cons.mpr ⟨by decide, hdigits _ hds⟩
  | minus hds => exact List.forall_mem_cons.mpr ⟨by decide, hdigits _ hds⟩

theorem readInt?_trim_iff {cs : List Char} {n : Int} : readInt? (Text.trim cs) = some n ↔
    ∃ front body back, cs = front ++ (body ++ back) ∧ Text.AllBlank front ∧ Text.AllBlank back ∧ Whole body n := by
  rw [readInt?_eq_some_iff]
  constructor
  · intro h
    obtain ⟨front, back, hcs, hfront, hback⟩ := Text.exists_surrounding cs
    exact ⟨front, _, back, hcs, hfront, hback, h⟩
  · rintro ⟨front, body, back, rfl, hfront, hback, h⟩
    rwa [Text.trim_surrounded (fun c hc => h.not_blank c (List.mem_of_mem_head? hc))
      (fun c hc => h.not_blank c (List.mem_of_mem_getLast? hc)) hfront hback]

end Numeral

/-! ## (2) Quotients -/

theorem natCast_div_eq_iff {num den : Nat} (hden : 0 < den) (n : Int) :
    (num : ℚ) / den = n ↔ num % den = 0 ∧ ((num / den : Nat) : Int) = n := by
  have hdenQ : (den : ℚ) ≠ 0 := Nat.cast_ne_zero.mpr hden.ne'
  constructor
  · intro h
    have hproduct : (num : Int) = n * den := by
      rw [div_eq_iff hdenQ] at h
      exact_mod_cast h
    have hdvd : (den : Int) ∣ num := ⟨n, by rw [hproduct, Int.mul_comm]⟩
    refine ⟨Nat.mod_eq_zero_of_dvd (Int.natCast_dvd_natCast.mp hdvd), ?_⟩
    rw [Int.natCast_ediv, hproduct, Int.mul_ediv_cancel _ (by omega)]
  · rintro ⟨hmod, rfl⟩
    have hproduct : num / den * den = num := Nat.div_mul_cancel (Nat.dvd_of_mod_eq_zero hmod)
    rw [div_eq_iff hdenQ]
    exact_mod_cast hproduct.symm

/-- A quotient with a sign is a whole number exactly if nothing remains. -/
theorem signed_quotient_iff {num den : Nat} (hden : 0 < den) (negative : Bool) (n : Int) :
    (if num % den = 0 then some (if negative then -((num / den : Nat) : Int) else (num / den : Nat)) else none) = some n ↔
      (if negative then -((num : ℚ) / den) else num / den) = n := by
  cases negative with
  | false =>
    simp only [Bool.false_eq_true, if_false, natCast_div_eq_iff hden]
    split <;> simp_all
  | true =>
    have hneg : -((num : ℚ) / den) = n ↔ (num : ℚ) / den = (-n : Int) := by
      rw [neg_eq_iff_eq_neg, Int.cast_neg]
    simp only [if_true, hneg, natCast_div_eq_iff hden]
    split <;> simp_all [neg_eq_iff_eq_neg]

namespace Binary64

theorem magnitude_eq_ratio (rank : Nat) : magnitude rank = (ratio rank).1 / (ratio rank).2 := by
  by_cases h : 0 ≤ exponent rank
  · have hden : (-exponent rank).toNat = 0 := by omega
    rw [magnitude_of_nonneg h, ratio, hden]
    simp
  · have hnum : (exponent rank).toNat = 0 := by omega
    have hden : (-exponent rank).toNat = (exponent rank).natAbs := by omega
    rw [magnitude_of_neg (by omega), ratio, hnum, hden]
    simp

theorem toInt?_eq_some_iff (x : Binary64) (n : Int) : x.toInt? = some n ↔ x.rational? = some (n : ℚ) := by
  cases x with
  | finite negative rank =>
    have hden : 0 < (ratio rank).2 := Nat.two_pow_pos _
    rw [rational?, Option.some.injEq, magnitude_eq_ratio]
    exact signed_quotient_iff hden negative n
  | infinite negative => simp [toInt?, rational?]
  | nan => simp [toInt?, rational?]

end Binary64

namespace Decimal

theorem toInt?_eq_some_iff (d : Decimal) (n : Int) : d.toInt? = some n ↔ d.value = n := by
  have hunit : 0 < d.unit := Nat.pow_pos (by decide : 0 < 10)
  have hvalue : d.value = if d.negative then -((d.mantissa : ℚ) / d.unit) else d.mantissa / d.unit := by
    rw [value_eq, unit]
    simp
  rw [hvalue]
  exact signed_quotient_iff hunit d.negative n

end Decimal

end EntityQuery
