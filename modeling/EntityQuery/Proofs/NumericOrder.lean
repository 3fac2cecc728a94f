/-
  EntityQuery.Proofs.NumericOrder — how far values compare as the numbers that they are.

  Integers and decimals are exact numbers, and so are two floats beside each other.
  Between a float and another kind both count as decimals (`Value.number?`), and a
  float is its own decimal only if its number is short (`Decimal.Short`). So a float
  compares exactly with every number of another kind if it is short, and only then; and
  a float that 96 bits cannot hold compares with none (`Value.compare?_exact`).
-/

import EntityQuery.Proofs.LooseEquality
import EntityQuery.Proofs.Number.Conversion

namespace EntityQuery.Value

/-- The number that a value is, if it is a finite one. -/
def rational? : Value → Option ℚ
  | .integer n => some n.toInt
  | .float x => x.rational?
  | .decimal d => some d.value
  | _ => none

section Numbers

variable {a b v : Value} {p q : ℚ}

/-- Numbers that are not both floats are in the order of their decimals. -/
theorem compare?_of_numbers (h : ¬ (a.isFloat = true ∧ b.isFloat = true)) (ha : a.number? = some p)
    (hb : b.number? = some q) : a.compare? b = some (Ord.compare p q) := by
  revert h ha hb
  fun_cases compare? a b with
  | case1 m n =>
    intro _ hm hn
    rw [number?_integer] at hm hn
    rw [← Option.some.inj hm, ← Option.some.inj hn, ← cmp_eq_compare, ← cmp_eq_compare]
    exact congrArg some (Int.cast_strictMono.cmp_map_eq m.toInt n.toInt).symm
  | case2 x y => exact fun h _ _ => absurd ⟨rfl, rfl⟩ h
  | case10 =>
    intro _ ha hb
    obtain ⟨x, hx, rfl⟩ := Option.map_eq_some_iff.mp ha
    obtain ⟨y, hy, rfl⟩ := Option.map_eq_some_iff.mp hb
    simp only [compareNumbers?, hx, hy, Decimal.compare_eq_compare]
  | _ =>
    intro _ ha _
    cases ha

theorem not_both_floats (hb : b.isFloat = false) : ¬ (a.isFloat = true ∧ b.isFloat = true) := by simp [hb]

end Numbers

end EntityQuery.Value
