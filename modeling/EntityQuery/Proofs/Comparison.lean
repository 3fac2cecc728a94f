/-
  EntityQuery.Proofs.Comparison — comparing two values the other way round gives the
  reversed order, and none where there was none (`Value.compare?_swap`). So a value is
  equal to itself, unless it compares with nothing.
-/

import EntityQuery.Value.Order

namespace EntityQuery

/-! ## Numbers and dates -/

theorem Binary64.compare?_swap (x y : Binary64) : y.compare? x = (x.compare? y).map Ordering.swap := by
  unfold compare?
  cases x.place? with
  | none => cases y.place? <;> rfl
  | some a =>
    cases y.place? with
    | none => rfl
    | some b => exact congrArg some Std.OrientedOrd.eq_swap

theorem Decimal.compare_swap (x y : Decimal) : y.compare x = (x.compare y).swap := Std.OrientedOrd.eq_swap

theorem Date.compare_swap (a b : Date) : b.compare a = (a.compare b).swap := by
  have hyear := Std.OrientedOrd.eq_swap (a := b.year) (b := a.year)
  have hmonth := Std.OrientedOrd.eq_swap (a := b.month) (b := a.month)
  have hday := Std.OrientedOrd.eq_swap (a := b.day) (b := a.day)
  rw [compare, compare, hyear, hmonth, hday, Ordering.swap_then, Ordering.swap_then]

theorem TimeOfDay.compare_swap (a b : TimeOfDay) : b.compare a = (a.compare b).swap := by
  have hhour := Std.OrientedOrd.eq_swap (a := b.hour) (b := a.hour)
  have hminute := Std.OrientedOrd.eq_swap (a := b.minute) (b := a.minute)
  have hsecond := Std.OrientedOrd.eq_swap (a := b.second) (b := a.second)
  have hnanosecond := Std.OrientedOrd.eq_swap (a := b.nanosecond) (b := a.nanosecond)
  rw [compare, compare, hhour, hminute, hsecond, hnanosecond, Ordering.swap_then, Ordering.swap_then,
    Ordering.swap_then]

theorem DateTime.compare_swap (a b : DateTime) : b.compare a = (a.compare b).swap := by
  rw [compare, compare, Date.compare_swap a.date, TimeOfDay.compare_swap a.time, Ordering.swap_then]

/-! ## Values -/

namespace Value

theorem compareNumbers?_swap (a b : Value) : compareNumbers? b a = (compareNumbers? a b).map Ordering.swap := by
  unfold compareNumbers?
  cases a.asDecimal? with
  | none => cases b.asDecimal? <;> rfl
  | some x =>
    cases b.asDecimal? with
    | none => rfl
    | some y => exact congrArg some (Decimal.compare_swap x y)

theorem compare?_swap (a b : Value) : b.compare? a = (a.compare? b).map Ordering.swap := by
  -- values of one kind, then a date beside a date and time, then all others
  fun_cases compare? a b with
  | case1 m n => exact congrArg some Std.OrientedOrd.eq_swap
  | case2 x y => exact Binary64.compare?_swap x y
  | case3 s t => exact congrArg some Std.OrientedOrd.eq_swap
  | case4 p q => exact congrArg some Std.OrientedOrd.eq_swap
  | case5 d e => exact congrArg some (Date.compare_swap d e)
  | case6 t u => exact congrArg some (DateTime.compare_swap t u)
  | case7 d t => exact congrArg some (DateTime.compare_swap (.ofDate d) t)
  | case8 t d => exact congrArg some (DateTime.compare_swap t (.ofDate d))
  | case9 => rfl
  | case10 =>
    -- no pair of the cases above, so none of them the other way round either
    rw [compare?]
    · exact compareNumbers?_swap a b
    all_goals grind

/-- A value is equal to itself, if it compares with itself at all. -/
theorem compare?_self (v : Value) : (v.compare? v).getD .eq = .eq := by
  have h := compare?_swap v v
  cases ho : v.compare? v with
  | none => rfl
  | some o =>
    rw [ho] at h
    cases o with
    | eq => rfl
    | lt => cases h
    | gt => cases h

end Value

end EntityQuery
