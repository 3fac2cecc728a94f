/-
  EntityQuery.Proofs.Equality — equality within a kind.

  (1) Numbers. A decimal is a rational number, and decimals compare equal exactly when
  they are one number. Floats compare equal exactly when they are at one place of the
  line, and one place has one decimal. Dates and moments are equal as they stand.

  (2) Values. Two values are the same exactly when they are written alike up to that
  (`Value.exact`) and there is no NaN in them. So sameness is symmetric and transitive.
-/

import EntityQuery.Value.Order
import Mathlib.Algebra.Order.Field.Rat

namespace EntityQuery

/-! ## (1) Numbers -/

namespace Binary64

theorem compare?_eq_eq {x y : Binary64} : x.compare? y = some .eq ↔ x.place? = y.place? ∧ x ≠ .nan := by
  unfold compare?
  cases x <;> cases y <;> simp [place?]

/-- Numbers at one place are one number, the two zeros apart. -/
theorem eq_or_zeros_of_place {x y : Binary64} (h : x.place? = y.place?) :
    x = y ∨ x.isZero = true ∧ y.isZero = true := by
  cases x with
  | finite s r =>
    have hr : r.val < 0x7FF0000000000000 := r.isLt
    cases y with
    | finite t q =>
      have hplace : (if s then -(r.val : Int) else r.val) = if t then -(q.val : Int) else q.val := Option.some.inj h
      have hrank : r = q := by
        ext
        split at hplace <;> split at hplace <;> omega
      subst hrank
      by_cases hzero : r.val = 0
      · exact .inr ⟨beq_iff_eq.mpr hzero, beq_iff_eq.mpr hzero⟩
      · refine .inl (congrArg (finite · r) ?_)
        cases s with
        | false =>
          cases t with
          | false => rfl
          | true =>
            have hopposite : (r.val : Int) = -r.val := hplace
            omega
        | true =>
          cases t with
          | false =>
            have hopposite : -(r.val : Int) = r.val := hplace
            omega
          | true => rfl
    | infinite t =>
      have hplace : (if s then -(r.val : Int) else r.val) = if t then -0x7FF0000000000000 else 0x7FF0000000000000 :=
        Option.some.inj h
      split at hplace <;> split at hplace <;> omega
    | nan => cases h
  | infinite s =>
    cases y with
    | finite t q =>
      have hq : q.val < 0x7FF0000000000000 := q.isLt
      have hplace : (if s then -0x7FF0000000000000 else 0x7FF0000000000000) = if t then -(q.val : Int) else q.val :=
        Option.some.inj h
      split at hplace <;> split at hplace <;> omega
    | infinite t =>
      cases s with
      | false =>
        cases t with
        | false => exact .inl rfl
        | true => cases h
      | true =>
        cases t with
        | false => cases h
        | true => exact .inl rfl
    | nan => cases h
  | nan =>
    cases y with
    | nan => exact .inl rfl
    | _ => cases h

end Binary64

namespace Decimal

/-- The number that a decimal is. -/
def value (d : Decimal) : ℚ := d.numerator / d.unit

theorem unit_ne_zero (d : Decimal) : (d.unit : ℚ) ≠ 0 :=
  Nat.cast_ne_zero.mpr (Nat.pow_pos (by decide : 0 < 10)).ne'

theorem compare_eq_eq {x y : Decimal} : x.compare y = .eq ↔ x.value = y.value := by
  rw [compare, compare_eq_iff_eq, value, value, div_eq_div_iff x.unit_ne_zero y.unit_ne_zero]
  exact_mod_cast Iff.rfl

theorem value_ofInt64 (n : Int64) : (ofInt64 n).value = n.toInt := by
  have hunit : (ofInt64 n).unit = 1 := rfl
  have hnumerator : (ofInt64 n).numerator = n.toInt := by
    unfold numerator ofInt64
    by_cases h : n.toInt < 0
    · simp only [h, decide_true, if_true]
      omega
    · simp only [h, decide_false, Bool.false_eq_true, if_false]
      omega
  rw [value, hnumerator, hunit, Nat.cast_one, div_one]

theorem value_of_isZero {x : Binary64} (h : x.isZero = true) : (ofBinary64? x).map value = some 0 := by
  cases x with
  | finite s r =>
    have hzero : r.val = 0 := beq_iff_eq.mp h
    rw [ofBinary64?, if_pos hzero]
    simp [of?, mantissaBound, value, numerator]
  | infinite s => cases h
  | nan => cases h

/-- One place has one decimal. -/
theorem value_of_place {x y : Binary64} (h : x.place? = y.place?) :
    (ofBinary64? x).map value = (ofBinary64? y).map value := by
  rcases Binary64.eq_or_zeros_of_place h with rfl | ⟨hx, hy⟩
  · rfl
  · rw [value_of_isZero hx, value_of_isZero hy]

end Decimal

/-! ### Dates -/

theorem Date.compare_eq_eq {a b : Date} : a.compare b = .eq ↔ a = b := by
  rw [compare, Ordering.then_eq_eq, Ordering.then_eq_eq, compare_eq_iff_eq, compare_eq_iff_eq, compare_eq_iff_eq]
  constructor
  · intro ⟨hyear, hmonth, hday⟩
    cases a
    cases b
    simp_all
  · rintro rfl
    exact ⟨rfl, rfl, rfl⟩

theorem TimeOfDay.compare_eq_eq {a b : TimeOfDay} : a.compare b = .eq ↔ a = b := by
  rw [compare, Ordering.then_eq_eq, Ordering.then_eq_eq, Ordering.then_eq_eq, compare_eq_iff_eq, compare_eq_iff_eq,
    compare_eq_iff_eq, compare_eq_iff_eq]
  constructor
  · intro ⟨hhour, hminute, hsecond, hnanosecond⟩
    cases a
    cases b
    simp_all
  · rintro rfl
    exact ⟨rfl, rfl, rfl, rfl⟩

theorem DateTime.compare_eq_eq {a b : DateTime} : a.compare b = .eq ↔ a = b := by
  rw [compare, Ordering.then_eq_eq, Date.compare_eq_eq, TimeOfDay.compare_eq_eq]
  constructor
  · intro ⟨hdate, htime⟩
    cases a
    cases b
    simp_all
  · rintro rfl
    exact ⟨rfl, rfl⟩

/-! ## (2) Equality within a kind -/

/-- What a value is, whichever way it is written: a decimal is its number, a float its
    place on the line. -/
inductive Exact where
  | null
  | boolean (b : Bool)
  | integer (n : Int64)
  | place (p : Option Int)
  | number (q : ℚ)
  | string (s : String)
  | date (d : Date)
  | moment (t : DateTime)
  | list (items : List Exact)
  | document (fields : List (String × Exact))

namespace Value

mutual

def exact : Value → Exact
  | .null => .null
  | .boolean b => .boolean b
  | .integer n => .integer n
  | .float x => .place x.place?
  | .decimal d => .number d.value
  | .string s => .string s
  | .date d => .date d
  | .dateTime t => .moment t
  | .array items => .list (exactItems items)
  | .object fields => .document (exactFields fields)

def exactItems : List Value → List Exact
  | [] => []
  | v :: vs => exact v :: exactItems vs

def exactFields : List (String × Value) → List (String × Exact)
  | [] => []
  | (name, v) :: fs => (name, exact v) :: exactFields fs

end

mutual

/-- Whether there is a NaN in a value, at any depth. -/
def hasNaN : Value → Bool
  | .float x => x == .nan
  | .array items => itemsHaveNaN items
  | .object fields => fieldsHaveNaN fields
  | _ => false

def itemsHaveNaN : List Value → Bool
  | [] => false
  | v :: vs => hasNaN v || itemsHaveNaN vs

def fieldsHaveNaN : List (String × Value) → Bool
  | [] => false
  | (_, v) :: fs => hasNaN v || fieldsHaveNaN fs

end

mutual

theorem same_eq_true (a b : Value) : same a b = true ↔ a.hasNaN = false ∧ a.exact = b.exact := by
  match a with
  | .null => cases b <;> simp [same, exact, hasNaN]
  | .boolean p => cases b <;> simp [same, exact, hasNaN]
  | .integer n => cases b <;> simp [same, exact, hasNaN]
  | .float x =>
    cases b with
    | float y => simp [same, exact, hasNaN, Binary64.compare?_eq_eq, and_comm]
    | _ => simp [same, exact]
  | .decimal d =>
    cases b with
    | decimal e => simp [same, exact, hasNaN, Decimal.compare_eq_eq]
    | _ => simp [same, exact]
  | .string s => cases b <;> simp [same, exact, hasNaN]
  | .date d => cases b <;> simp [same, exact, hasNaN]
  | .dateTime t => cases b <;> simp [same, exact, hasNaN]
  | .array xs =>
    cases b with
    | array ys => simpa [same, exact, hasNaN] using sameItems_eq_true xs ys
    | _ => simp [same, exact]
  | .object fs =>
    cases b with
    | object gs => simpa [same, exact, hasNaN] using sameFields_eq_true fs gs
    | _ => simp [same, exact]

theorem sameItems_eq_true (xs ys : List Value) :
    sameItems xs ys = true ↔ itemsHaveNaN xs = false ∧ exactItems xs = exactItems ys := by
  match xs with
  | [] => cases ys <;> simp [sameItems, exactItems, itemsHaveNaN]
  | x :: xs =>
    cases ys with
    | nil => simp [sameItems, exactItems]
    | cons y ys =>
      simp only [sameItems, exactItems, itemsHaveNaN, Bool.and_eq_true, Bool.or_eq_false_iff, List.cons.injEq,
        same_eq_true x y, sameItems_eq_true xs ys]
      tauto

theorem sameFields_eq_true (fs gs : List (String × Value)) :
    sameFields fs gs = true ↔ fieldsHaveNaN fs = false ∧ exactFields fs = exactFields gs := by
  match fs with
  | [] => cases gs <;> simp [sameFields, exactFields, fieldsHaveNaN]
  | (n, x) :: fs =>
    cases gs with
    | nil => simp [sameFields, exactFields]
    | cons g gs =>
      obtain ⟨m, y⟩ := g
      simp only [sameFields, exactFields, fieldsHaveNaN, Bool.and_eq_true, Bool.or_eq_false_iff, List.cons.injEq,
        Prod.mk.injEq, beq_iff_eq, same_eq_true x y, sameFields_eq_true fs gs]
      tauto

end

end Value

namespace Exact

mutual

def hasNaN : Exact → Bool
  | .place p => p.isNone
  | .list items => itemsHaveNaN items
  | .document fields => fieldsHaveNaN fields
  | _ => false

def itemsHaveNaN : List Exact → Bool
  | [] => false
  | v :: vs => hasNaN v || itemsHaveNaN vs

def fieldsHaveNaN : List (String × Exact) → Bool
  | [] => false
  | (_, v) :: fs => hasNaN v || fieldsHaveNaN fs

end

end Exact

namespace Value

mutual

theorem hasNaN_exact (v : Value) : v.exact.hasNaN = v.hasNaN := by
  match v with
  | .float x => cases x <;> rfl
  | .array vs => exact itemsHaveNaN_exact vs
  | .object fs => exact fieldsHaveNaN_exact fs
  | .null | .boolean _ | .integer _ | .decimal _ | .string _ | .date _ | .dateTime _ => rfl

theorem itemsHaveNaN_exact (vs : List Value) : Exact.itemsHaveNaN (exactItems vs) = itemsHaveNaN vs := by
  match vs with
  | [] => rfl
  | v :: vs => rw [exactItems, Exact.itemsHaveNaN, itemsHaveNaN, hasNaN_exact v, itemsHaveNaN_exact vs]

theorem fieldsHaveNaN_exact (fs : List (String × Value)) :
    Exact.fieldsHaveNaN (exactFields fs) = fieldsHaveNaN fs := by
  match fs with
  | [] => rfl
  | (_, v) :: fs => rw [exactFields, Exact.fieldsHaveNaN, fieldsHaveNaN, hasNaN_exact v, fieldsHaveNaN_exact fs]

end

theorem same_self {v : Value} (h : v.hasNaN = false) : same v v = true := (same_eq_true v v).mpr ⟨h, rfl⟩

theorem same_symm {a b : Value} (h : same a b = true) : same b a = true := by
  obtain ⟨hnan, hexact⟩ := (same_eq_true a b).mp h
  refine (same_eq_true b a).mpr ⟨?_, hexact.symm⟩
  rw [← hasNaN_exact, ← hexact, hasNaN_exact, hnan]

theorem same_trans {a b c : Value} (hab : same a b = true) (hbc : same b c = true) : same a c = true := by
  obtain ⟨hnan, hexact⟩ := (same_eq_true a b).mp hab
  exact (same_eq_true a c).mpr ⟨hnan, hexact.trans ((same_eq_true b c).mp hbc).2⟩

end Value

end EntityQuery
