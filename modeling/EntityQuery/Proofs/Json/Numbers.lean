/-
  EntityQuery.Proofs.Json.Numbers — a number that is read off a JSON text is finite.

  A reader gathers digits into 64 bits, so what is scaled starts out at no more than
  2 ^ 64. Multiplying tells when it leaves the format, but dividing does not ask.
  It need not: powers of ten are at least one, and a quotient by such a number is
  rounded to no more than 2 ^ 64 again (`Binary64.Moderate.div`).
-/

import Mathlib.Algebra.Order.Field.Power
import Mathlib.Data.Rat.Cast.Order
import Mathlib.Tactic.Linarith
import Mathlib.Tactic.NormNum
import Mathlib.Tactic.Positivity
import Mathlib.Tactic.Ring
import EntityQuery.Json.Lexeme
import EntityQuery.Proofs.Outcomes

namespace EntityQuery

namespace Binary64

/-! ## Rounding -/

theorem roundDiv_le {num den m : Nat} (hden : 0 < den) (h : num ≤ den * m) : roundDiv num den ≤ m := by
  have hsplit := Nat.div_add_mod num den
  have hquotient : num / den ≤ m := Nat.div_le_of_le_mul h
  rcases Nat.lt_or_eq_of_le hquotient with hlt | heq
  · unfold roundDiv
    simp only
    split <;> omega
  · -- A quotient of `m` leaves no remainder, so nothing is rounded up.
    have hexact : num % den = 0 := by
      rw [heq] at hsplit
      omega
    have hsmall : compare (2 * (num % den)) den = .lt := by
      rw [hexact]
      exact Nat.compare_eq_lt.mpr hden
    unfold roundDiv
    simp only [hsmall]
    exact hquotient

theorem two_zpow_eq (e : Int) : (2 : ℚ) ^ e = 2 ^ e.toNat / 2 ^ (-e).toNat := by
  have he : e = (e.toNat : Int) - ((-e).toNat : Int) := by omega
  conv_lhs => rw [he]
  rw [zpow_sub₀ (by norm_num), zpow_natCast, zpow_natCast]

section Quotient

variable {num den : Nat}

/-- Comparing a quotient with a power of two, in whole numbers and as quotients. -/
theorem scaled_le_iff (hden : 0 < den) (e : Int) (m : Nat) :
    num * 2 ^ (-e).toNat ≤ den * 2 ^ e.toNat * m ↔ (num : ℚ) / den ≤ 2 ^ e * m := by
  have hdenQ : (0 : ℚ) < den := by exact_mod_cast hden
  rw [two_zpow_eq, div_mul_eq_mul_div, div_le_div_iff₀ hdenQ (by positivity), ← @Nat.cast_le ℚ]
  push_cast
  rw [show (2 : ℚ) ^ e.toNat * m * den = den * 2 ^ e.toNat * m by ring]

theorem le_scaled_iff (hden : 0 < den) (e : Int) :
    den * 2 ^ e.toNat ≤ num * 2 ^ (-e).toNat ↔ (2 : ℚ) ^ e ≤ (num : ℚ) / den := by
  have hdenQ : (0 : ℚ) < den := by exact_mod_cast hden
  rw [two_zpow_eq, div_le_div_iff₀ (by positivity) hdenQ, ← @Nat.cast_le ℚ]
  push_cast
  rw [mul_comm (den : ℚ)]

/-- The leading bits of its two numbers put a quotient between powers of two. -/
theorem log2_quotient (hnum : num ≠ 0) (hden : 0 < den) :
    (2 : ℚ) ^ ((num.log2 : Int) - den.log2 - 1) ≤ num / den ∧
      (num : ℚ) / den < 2 ^ ((num.log2 : Int) - den.log2 + 1) := by
  have hdenQ : (0 : ℚ) < den := by exact_mod_cast hden
  have hnumLow : (2 : ℚ) ^ (num.log2 : Int) ≤ num := by exact_mod_cast Nat.log2_self_le hnum
  have hnumHigh : (num : ℚ) < 2 ^ ((num.log2 : Int) + 1) := by exact_mod_cast Nat.lt_log2_self
  have hdenLow : (2 : ℚ) ^ (den.log2 : Int) ≤ den := by exact_mod_cast Nat.log2_self_le hden.ne'
  have hdenHigh : (den : ℚ) < 2 ^ ((den.log2 : Int) + 1) := by exact_mod_cast Nat.lt_log2_self
  constructor
  · rw [le_div_iff₀ hdenQ]
    calc (2 : ℚ) ^ ((num.log2 : Int) - den.log2 - 1) * den
        ≤ 2 ^ ((num.log2 : Int) - den.log2 - 1) * 2 ^ ((den.log2 : Int) + 1) := by gcongr
      _ = 2 ^ (num.log2 : Int) := by
        rw [← zpow_add₀ (by norm_num)]
        congr 1
        omega
      _ ≤ num := hnumLow
  · rw [div_lt_iff₀ hdenQ]
    calc (num : ℚ) < 2 ^ ((num.log2 : Int) + 1) := hnumHigh
      _ = 2 ^ ((num.log2 : Int) - den.log2 + 1) * 2 ^ (den.log2 : Int) := by
        rw [← zpow_add₀ (by norm_num)]
        congr 1
        omega
      _ ≤ 2 ^ ((num.log2 : Int) - den.log2 + 1) * den := by gcongr

/-- The leading bit of a quotient says between which powers of two it lies. -/
theorem leadingBit_spec (hnum : num ≠ 0) (hden : 0 < den) :
    (2 : ℚ) ^ leadingBit num den ≤ (num : ℚ) / den ∧ (num : ℚ) / den < 2 ^ (leadingBit num den + 1) := by
  obtain ⟨hlow, hhigh⟩ := log2_quotient hnum hden
  unfold leadingBit
  simp only
  split
  · next hfits => exact ⟨(le_scaled_iff hden _).mp hfits, hhigh⟩
  · next hfits =>
    refine ⟨hlow, ?_⟩
    rw [sub_add_cancel]
    exact not_le.mp fun h => hfits ((le_scaled_iff hden _).mpr h)

/-- The rank of 2 ^ 64. -/
abbrev moderateRank : Nat := 1087 * hiddenBit

/-- What is no more than 2 ^ 64 is rounded to no more than 2 ^ 64. -/
theorem nearestRank_le (hden : 0 < den) (h : num ≤ den * 2 ^ 64) : nearestRank num den ≤ moderateRank := by
  unfold nearestRank
  split
  · exact Nat.zero_le _
  next hnum =>
  simp only [moderateRank, hiddenBit]
  obtain ⟨hlow, hhigh⟩ := leadingBit_spec hnum hden
  have hbound : (num : ℚ) / den ≤ 2 ^ (64 : Int) := by
    rw [div_le_iff₀ (by exact_mod_cast hden), mul_comm]
    exact_mod_cast h
  have hleading : leadingBit num den ≤ 64 := (zpow_le_zpow_iff_right₀ (by norm_num)).mp (hlow.trans hbound)
  generalize hq : max (leadingBit num den - 52) (-1074) = q
  have hround : ∀ m : Nat, (num : ℚ) / den ≤ 2 ^ q * m →
      roundDiv (num * Nat.pow 2 (-q).toNat) (den * Nat.pow 2 q.toNat) ≤ m := fun m hm =>
    roundDiv_le (Nat.mul_pos hden (Nat.two_pow_pos _)) ((scaled_le_iff hden q m).mpr hm)
  -- Only 2 ^ 64 itself has its last place at 2 ^ 12.
  rcases (show q ≤ 11 ∨ q = 12 by omega) with hsmall | hlast
  · have hplaces : (num : ℚ) / den ≤ 2 ^ q * (2 ^ 53 : Nat) := by
      calc (num : ℚ) / den ≤ 2 ^ (leadingBit num den + 1) := hhigh.le
        _ ≤ 2 ^ (q + 53) := zpow_le_zpow_right₀ (by norm_num) (by omega)
        _ = 2 ^ q * (2 ^ 53 : Nat) := by
          rw [zpow_add₀ (by norm_num)]
          norm_num
    have := hround _ hplaces
    omega
  · have hplaces : (num : ℚ) / den ≤ 2 ^ q * (2 ^ 52 : Nat) := hbound.trans (by rw [hlast]; norm_num)
    have := hround _ hplaces
    omega

end Quotient

theorem ratio_snd_pos (rank : Nat) : 0 < (ratio rank).2 := Nat.two_pow_pos _

theorem ratio_le {rank : Nat} (h : rank ≤ moderateRank) : (ratio rank).1 ≤ (ratio rank).2 * 2 ^ 64 := by
  simp only [moderateRank, hiddenBit] at h
  rcases Nat.lt_or_eq_of_le h with hlt | rfl
  · have hsignificand : significand rank ≤ 2 ^ 53 := by
      simp only [significand, hiddenBit]
      split <;> omega
    have hexponent : (exponent rank).toNat ≤ 11 := by
      simp only [exponent, hiddenBit]
      split <;> omega
    calc significand rank * 2 ^ (exponent rank).toNat ≤ 2 ^ 53 * 2 ^ 11 :=
          Nat.mul_le_mul hsignificand (Nat.pow_le_pow_right (by decide) hexponent)
      _ ≤ (ratio rank).2 * 2 ^ 64 := Nat.le_mul_of_pos_left _ (ratio_snd_pos rank)
  · decide +kernel

/-! ## Scaling -/

/-- No more than 2 ^ 64 from zero. -/
inductive Moderate : Binary64 → Prop where
  | finite (negative : Bool) (rank : Fin rankBound) (h : rank.val ≤ moderateRank) : Moderate (.finite negative rank)

def atLeastOne : Binary64 → Bool
  | .finite _ rank => (ratio rank).2 ≤ (ratio rank).1
  | _ => false

theorem atLeastOne_powers : ∀ k < 309, (ofNat (Nat.pow 10 k)).atLeastOne = true := by decide +kernel

theorem nearest_moderate (negative : Bool) {num den : Nat} (hden : 0 < den) (h : num ≤ den * 2 ^ 64) :
    (nearest negative num den).Moderate := by
  have hrank := nearestRank_le hden h
  unfold nearest
  rw [dif_pos (Nat.lt_of_le_of_lt hrank (by decide))]
  exact .finite negative _ hrank

theorem ofNat_moderate {n : Nat} (h : n ≤ 2 ^ 64) : (ofNat n).Moderate := nearest_moderate false Nat.one_pos (by omega)

namespace Moderate

variable {x y : Binary64}

theorem isFinite (h : x.Moderate) : x.isFinite = true := by
  cases h
  rfl

theorem neg (h : x.Moderate) : x.neg.Moderate := by
  cases h with
  | finite negative rank h => exact .finite _ rank h

theorem div (hx : x.Moderate) (hy : y.atLeastOne = true) : (x.div y).Moderate := by
  cases hx with
  | finite s a ha =>
    cases y with
    | finite t b =>
      have hb : (ratio b).2 ≤ (ratio b).1 := of_decide_eq_true hy
      have hpos : 0 < (ratio b).1 := Nat.lt_of_lt_of_le (ratio_snd_pos b) hb
      have hne : b.val ≠ 0 := by
        intro hzero
        rw [hzero] at hpos
        revert hpos
        decide
      rw [Binary64.div, if_neg hne]
      refine nearest_moderate _ (Nat.mul_pos (ratio_snd_pos a) hpos) ?_
      calc (ratio a).1 * (ratio b).2 ≤ (ratio a).2 * 2 ^ 64 * (ratio b).1 := Nat.mul_le_mul (ratio_le ha) hb
        _ = (ratio a).2 * (ratio b).1 * 2 ^ 64 := Nat.mul_right_comm ..
    | _ => cases hy

end Moderate

end Binary64

namespace Json

theorem isFinite_of_scale {fuel : Nat} {x y : Binary64} {power : Int} (hx : x.Moderate)
    (h : scale? fuel x power = some y) : y.isFinite = true := by
  induction fuel generalizing x power with
  | zero =>
    obtain rfl := Option.some.inj h
    exact hx.isFinite
  | succ fuel ih =>
    rw [scale?] at h
    split at h
    · next hnear =>
      split at h
      · dsimp only at h
        split at h
        · next hfinite =>
          obtain rfl := Option.some.inj h
          exact hfinite
        · cases h
      · obtain rfl := Option.some.inj h
        exact (hx.div (Binary64.atLeastOne_powers _ (by omega))).isFinite
    · split at h
      · obtain rfl := Option.some.inj h
        exact hx.isFinite
      · split at h
        · cases h
        · exact ih (hx.div (Binary64.atLeastOne_powers 308 (by decide))) h

/-! ## Reading -/

/-- A number that is whole or finite. -/
def Number.IsFinite : Number → Prop
  | .whole _ => True
  | .float x => x.isFinite = true

/-- Whatever is read, it has the property. -/
def Yields {α : Type} (r : Reading α) (p : α → Prop) : Prop := ∀ a rest, r = .ok (a, rest) → p a

theorem yields_fault {α : Type} {p : α → Prop} (cause : Cause) (rest : List Char) (bytes : Nat) :
    Yields (faultAt cause rest bytes) p := nofun

theorem yields_ok {α : Type} {p : α → Prop} {a : α} {rest : List Char} (h : p a) : Yields (.ok (a, rest)) p := by
  intro b rest' heq
  rw [← (Prod.mk.inj (Except.ok.inj heq)).1]
  exact h

theorem yields_ite {α : Type} {p : α → Prop} {c : Prop} [Decidable c] {r s : Reading α} (hr : c → Yields r p)
    (hs : ¬ c → Yields s p) : Yields (if c then r else s) p := by
  split
  · next hc => exact hr hc
  · next hc => exact hs hc

/-- Sixty-four bits hold what is gathered. -/
abbrev gatherLimit : Nat := 2 ^ 64 - 1

theorem gather_le {limit n : Nat} (h : n ≤ limit) (count : Nat) (cs : List Char) : (gather limit n count cs).1 ≤ limit := by
  induction cs generalizing n count with
  | nil => exact h
  | cons c cs ih =>
    rw [gather]
    split
    · next hnext => exact ih (of_decide_eq_true (Bool.and_eq_true _ _ ▸ hnext).2) _
    · exact h

section Number

variable {negative : Bool} {n : Nat} (h : n ≤ gatherLimit)
include h

theorem finishFloat_finite (power : Int) (rest : List Char) :
    Yields (finishFloat negative n power rest) Number.IsFinite := by
  unfold finishFloat
  split
  · next x hx =>
    have hfinite : x.isFinite = true := isFinite_of_scale (Binary64.ofNat_moderate (h.trans (by decide))) hx
    refine yields_ok ?_
    show Binary64.isFinite (if negative then x.neg else x) = true
    cases negative with
    | false => exact hfinite
    | true =>
      cases x with
      | finite => rfl
      | _ => cases hfinite
  · exact yields_fault _ _ _

theorem powerDigits_finite (power : Int) (down : Bool) (cs : List Char) :
    Yields (powerDigits negative n power down cs) Number.IsFinite := by
  unfold powerDigits
  split
  · exact yields_fault _ _ _
  · refine yields_ite (fun _ => ?_) fun _ => yields_fault _ _ _
    refine yields_ite (fun _ => ?_) fun _ => finishFloat_finite h _ _
    exact yields_ite (fun _ => yields_fault _ _ _) fun _ => yields_ok rfl

theorem powerPart_finite (power : Int) (cs : List Char) : Yields (powerPart negative n power cs) Number.IsFinite := by
  unfold powerPart
  split <;> exact powerDigits_finite h _ _ _

theorem floatEnd_finite (power : Int) (cs : List Char) : Yields (floatEnd negative n power cs) Number.IsFinite := by
  unfold floatEnd
  split
  · exact powerPart_finite h _ _
  · exact powerPart_finite h _ _
  · exact finishFloat_finite h _ _

theorem fractionPart_finite (power : Int) (cs : List Char) :
    Yields (fractionPart negative n power cs) Number.IsFinite := by
  have hgather := gather_le h 0 cs
  unfold fractionPart
  simp only
  refine yields_ite (fun _ => floatEnd_finite hgather _ _) fun _ => yields_ite (fun _ => ?_) fun _ =>
    floatEnd_finite hgather _ _
  exact yields_ite (fun _ => yields_fault _ _ _) fun _ => yields_fault _ _ _

theorem wholeNumber_finite : (wholeNumber negative n).IsFinite := by
  unfold wholeNumber
  split
  · trivial
  · split
    · exact (Binary64.ofNat_moderate (h.trans (by decide))).neg.isFinite
    · trivial

theorem wholeEnd_finite (cs : List Char) : Yields (wholeEnd negative n cs) Number.IsFinite := by
  unfold wholeEnd
  split
  · exact fractionPart_finite h _ _
  · exact powerPart_finite h _ _
  · exact powerPart_finite h _ _
  · exact yields_ok (wholeNumber_finite h)

theorem longEnd_finite (power : Int) (cs : List Char) : Yields (longEnd negative n power cs) Number.IsFinite := by
  unfold longEnd
  split
  · exact fractionPart_finite h _ _
  · exact floatEnd_finite h _ _

end Number

/-- No number of a JSON text is infinite, or no number at all. -/
theorem number_finite (negative : Bool) (cs : List Char) : Yields (number negative cs) Number.IsFinite := by
  unfold number
  split
  · exact yields_fault _ _ _
  · exact yields_ite (fun _ => yields_fault _ _ _) fun _ => wholeEnd_finite (Nat.zero_le _) _
  · next c cs _ =>
    have hgather := gather_le (Nat.zero_le gatherLimit) 0 (c :: cs)
    refine yields_ite (fun _ => ?_) fun _ => yields_fault _ _ _
    exact yields_ite (fun _ => longEnd_finite hgather _ _) fun _ => wholeEnd_finite hgather _

end Json

end EntityQuery
