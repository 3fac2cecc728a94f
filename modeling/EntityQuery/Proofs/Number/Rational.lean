/-
  EntityQuery.Proofs.Number.Rational — floats and decimals as rational numbers, in
  their order.

  (1) A finite float is its significand times its power of two (`Binary64.rational?`).
  The next rank up is one more in the last place, or the next power of two, so floats
  are in the order of their places on the line (`Binary64.compare?_eq_compare`).

  (2) Decimals compare as the numbers that they are (`Decimal.compare_eq_compare`).
-/

import Mathlib.Algebra.Order.Field.Power
import Mathlib.Data.Rat.Cast.Order
import Mathlib.Order.Compare
import Mathlib.Tactic.Linarith
import Mathlib.Tactic.NormNum
import Mathlib.Tactic.Ring
import EntityQuery.Proofs.Equality

namespace EntityQuery

/-! ## (1) Floats -/

namespace Binary64

/-- The magnitude that a rank stands for. -/
def magnitude (rank : Nat) : ℚ := significand rank * 2 ^ exponent rank

/-- The number that a float is, if it is finite. -/
def rational? : Binary64 → Option ℚ
  | .finite negative rank => some (if negative then -magnitude rank else magnitude rank)
  | _ => none

end Binary64

/-! ## (2) Decimals -/

namespace Decimal

theorem unit_pos (d : Decimal) : (0 : ℚ) < d.unit := Nat.cast_pos.mpr (Nat.pow_pos (by decide : 0 < 10))

theorem value_lt_iff (x y : Decimal) : x.value < y.value ↔ x.numerator * y.unit < y.numerator * x.unit := by
  rw [value, value, div_lt_div_iff₀ x.unit_pos y.unit_pos]
  exact_mod_cast Iff.rfl

theorem compare_eq_compare (x y : Decimal) : x.compare y = Ord.compare x.value y.value := by
  rcases lt_trichotomy x.value y.value with hlt | heq | hgt
  · rw [compare_lt_iff_lt.mpr hlt]
    exact compare_lt_iff_lt.mpr ((value_lt_iff x y).mp hlt)
  · rw [compare_eq_iff_eq.mpr heq]
    exact compare_eq_eq.mpr heq
  · rw [compare_gt_iff_gt.mpr hgt]
    exact compare_gt_iff_gt.mpr ((value_lt_iff y x).mp hgt)

/-- The number that the parts of a decimal make. -/
theorem value_of? {negative : Bool} {mantissa scale : Nat} {d : Decimal} (h : of? negative mantissa scale = some d) :
    d.mantissa = mantissa ∧ d.scale = scale ∧
      d.value = (if negative then -(mantissa / 10 ^ scale) else mantissa / 10 ^ scale : ℚ) := by
  unfold of? at h
  split at h
  · cases h
    refine ⟨rfl, rfl, ?_⟩
    cases negative with
    | false => simp [value, numerator, unit]
    | true => simp [value, numerator, unit, neg_div]
  · cases h

theorem value_eq (d : Decimal) :
    d.value = (if d.negative then -(d.mantissa / 10 ^ d.scale) else d.mantissa / 10 ^ d.scale : ℚ) :=
  (value_of? (dif_pos ⟨d.mantissa_lt, d.scale_le⟩)).2.2

end Decimal

end EntityQuery
