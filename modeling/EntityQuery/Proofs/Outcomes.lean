/-
  EntityQuery.Proofs.Outcomes — what came of something that may fail.

  A chain gives a value if and only if each of its links gives one
  (`except_bind_eq_ok`). What a closed run gives may have no test for equality; then a
  view of it that has one is evaluated, and tells what was given
  (`except_toOption_eq_some`).
-/

namespace EntityQuery

variable {ε α β : Type}

theorem except_bind_eq_ok {x : Except ε α} {f : α → Except ε β} {b : β} :
    (x >>= f) = .ok b ↔ ∃ a, x = .ok a ∧ f a = .ok b := by
  cases x with
  | ok a =>
    show f a = .ok b ↔ _
    simp
  | error e =>
    show Except.error e = .ok b ↔ _
    simp

theorem except_map_injective {f : α → β} (hf : ∀ a b, f a = f b → a = b) {x y : Except ε α} (h : f <$> x = f <$> y) :
    x = y := by
  cases x with
  | ok a =>
    cases y with
    | ok b => exact congrArg Except.ok (hf a b (Except.ok.inj h))
    | error e => cases h
  | error e =>
    cases y with
    | ok b => cases h
    | error e' => exact congrArg Except.error (Except.error.inj h)

theorem except_toOption_eq_some {x : Except ε α} {a : α} : x.toOption = some a ↔ x = .ok a := by
  cases x <;> simp [Except.toOption]

end EntityQuery
