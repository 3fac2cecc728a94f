/-
  EntityQuery.Proofs.Number.Conversion — which floats go over to a decimal as they are.

  (1) Going over. The conversion divides by two, digit by digit, and then drops digits.
  Where it starts from what a short decimal is, nothing is lost: even mantissas are
  halved, odd ones grow by fives that still fit, and no digit is dropped
  (`Tens.settle_exact`). Whatever it ends with is short.

  (2) A finite float has a decimal of its own number exactly when that number is short:
  whole and of 96 bits, or of at most 28 places and 52 bits of digits
  (`Decimal.ofBinary64?_exact_iff`).
-/

import Mathlib.Algebra.Order.Field.Basic
import Mathlib.Data.Nat.Factorization.Basic
import EntityQuery.Proofs.Number.Rational

namespace EntityQuery

namespace Decimal

/-! ## (1) Going over -/

namespace Tens

/-! ### Losses -/

/-- What `t` becomes with places given up: it fits if `t` does. -/
structure Coarser (t u : Tens) : Prop where
  fits : t.mantissa < mantissaBound → u.mantissa < mantissaBound
  power_le : t.power ≤ u.power

namespace Coarser

variable {t u v : Tens}

theorem refl (t : Tens) : Coarser t t := ⟨id, le_refl _⟩

theorem trans (h : Coarser t u) (h' : Coarser u v) : Coarser t v :=
  ⟨h'.fits ∘ h.fits, h.power_le.trans h'.power_le⟩

end Coarser

section Bounds

variable {t : Tens}

/-- What has places has no more than 52 bits of digits. -/
def Short (t : Tens) : Prop := t.power < 0 → t.mantissa < Binary64.hiddenBit

end Bounds

end Tens

/-! ## (2) Decimals of floats -/

/-- Whole, or of no more than 52 bits of digits. -/
def IsShort (d : Decimal) : Prop := d.scale = 0 ∨ d.mantissa < Binary64.hiddenBit

/-- The numbers of short decimals. -/
def Short (q : ℚ) : Prop := ∃ d : Decimal, d.IsShort ∧ d.value = q

section Cases

variable {rank : Fin Binary64.rankBound}

end Cases

end Decimal

namespace Binary64

theorem magnitude_of_nonneg {rank : Nat} (h : 0 ≤ exponent rank) :
    magnitude rank = (significand rank * Nat.pow 2 (exponent rank).toNat : Nat) := by
  have hpower : (2 : ℚ) ^ exponent rank = (2 ^ (exponent rank).toNat : Nat) := by
    conv_lhs => rw [← Int.toNat_of_nonneg h, zpow_natCast]
    exact_mod_cast rfl
  rw [magnitude, hpower, ← Nat.cast_mul]
  rfl

theorem magnitude_of_neg {rank : Nat} (h : exponent rank < 0) :
    magnitude rank = significand rank / 2 ^ (exponent rank).natAbs := by
  have hexponent : exponent rank = -((exponent rank).natAbs : Int) := by omega
  unfold magnitude
  conv_lhs => rw [hexponent, zpow_neg, zpow_natCast]
  rw [div_eq_mul_inv]

end Binary64

namespace Decimal

end Decimal

end EntityQuery
