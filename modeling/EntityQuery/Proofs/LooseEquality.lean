/-
  EntityQuery.Proofs.LooseEquality — loose equality as an equality.

  (1) Comparison. Values that compare equal across kinds are one number, or one moment
  (`Value.Loosely`). A float counts as a decimal near it there, but as itself beside
  another float. So one number may equal two floats that differ
  (`Value.one_equals_two_floats`), and comparison is transitive but for that
  (`Value.compare?_trans`).

  (2) Lists and documents. A value without NaN is equal to itself, and equality is
  symmetric.

  (3) Transitivity. Where no two floats are bridged by a number (`Value.Unbridged`),
  loose equality is transitive (`Value.looseEq_trans`).
-/

import EntityQuery.Proofs.Comparison
import EntityQuery.Proofs.Equality

namespace EntityQuery

/-! ## (1) Comparison -/

namespace Value

def isFloat : Value → Bool
  | .float _ => true
  | _ => false

/-- The number of a value that is one, rounded to a decimal if it is a float. -/
def number? (v : Value) : Option ℚ := v.asDecimal?.map Decimal.value

/-- What a value is to a value of another kind: a number is its decimal, and a date its
    first moment. -/
inductive Loosely : Value → Exact → Prop
  | null : Loosely .null .null
  | boolean (b : Bool) : Loosely (.boolean b) (.boolean b)
  | string (s : String) : Loosely (.string s) (.string s)
  | date (d : Date) : Loosely (.date d) (.moment ⟨d, .midnight⟩)
  | moment (t : DateTime) : Loosely (.dateTime t) (.moment t)
  | number {v : Value} {q : ℚ} : v.number? = some q → Loosely v (.number q)

theorem Loosely.unique {v : Value} {k l : Exact} (h : Loosely v k) (h' : Loosely v l) : k = l := by
  cases h with
  | number hq =>
    cases h' with
    | number hq' => rw [Option.some.inj (hq.symm.trans hq')]
    | _ => cases hq
  | _ =>
    cases h' with
    | number hq' => cases hq'
    | _ => rfl

theorem compareNumbers?_eq_eq {a b : Value} :
    compareNumbers? a b = some .eq ↔ ∃ q, a.number? = some q ∧ b.number? = some q := by
  unfold compareNumbers? number?
  cases a.asDecimal? with
  | none => simp
  | some x =>
    cases b.asDecimal? with
    | none => simp
    | some y => simp [Decimal.compare_eq_eq, eq_comm (a := y.value)]

theorem number?_integer (n : Int64) : (Value.integer n).number? = some (n.toInt : ℚ) :=
  congrArg some (Decimal.value_ofInt64 n)

/-- Numbers that are not both floats are equal if they are one number. -/
theorem compare?_of_number {a b : Value} (h : ¬ (a.isFloat = true ∧ b.isFloat = true)) {q : ℚ} (ha : a.number? = some q)
    (hb : b.number? = some q) : a.compare? b = some .eq := by
  revert h ha hb
  fun_cases compare? a b with
  | case1 m n =>
    intro _ hm hn
    rw [number?_integer] at hm hn
    have hmn : m.toInt = n.toInt := by exact_mod_cast Option.some.inj (hm.trans hn.symm)
    exact congrArg some (Std.LawfulEqCmp.compare_eq_iff_eq.mpr hmn)
  | case2 x y => exact fun h _ _ => absurd ⟨rfl, rfl⟩ h
  | case10 => exact fun _ ha hb => compareNumbers?_eq_eq.mpr ⟨q, ha, hb⟩
  | _ =>
    intro _ ha _
    cases ha

theorem loosely_of_compare? {a b : Value} (h : ¬ (a.isFloat = true ∧ b.isFloat = true))
    (he : a.compare? b = some .eq) : ∃ k, Loosely a k ∧ Loosely b k := by
  revert h he
  fun_cases compare? a b with
  | case1 m n =>
    intro _ he
    have hmn : m.toInt = n.toInt := Std.LawfulEqCmp.compare_eq_iff_eq.mp (Option.some.inj he)
    exact ⟨_, .number (number?_integer m), .number (hmn ▸ number?_integer n)⟩
  | case2 x y => exact fun h _ => absurd ⟨rfl, rfl⟩ h
  | case3 s t =>
    intro _ he
    obtain rfl : s = t := Std.LawfulEqCmp.compare_eq_iff_eq.mp (Option.some.inj he)
    exact ⟨_, .string s, .string s⟩
  | case4 p q =>
    intro _ he
    obtain rfl : p = q := Std.LawfulEqCmp.compare_eq_iff_eq.mp (Option.some.inj he)
    exact ⟨_, .boolean p, .boolean p⟩
  | case5 d e =>
    intro _ he
    obtain rfl := Date.compare_eq_eq.mp (Option.some.inj he)
    exact ⟨_, .date d, .date d⟩
  | case6 t u =>
    intro _ he
    obtain rfl := DateTime.compare_eq_eq.mp (Option.some.inj he)
    exact ⟨_, .moment t, .moment t⟩
  | case7 d t =>
    intro _ he
    obtain rfl := DateTime.compare_eq_eq.mp (Option.some.inj he)
    exact ⟨_, .date d, .moment _⟩
  | case8 t d =>
    intro _ he
    obtain rfl := DateTime.compare_eq_eq.mp (Option.some.inj he)
    exact ⟨_, .moment _, .date d⟩
  | case9 => exact fun _ _ => ⟨_, .null, .null⟩
  | case10 =>
    intro _ he
    obtain ⟨q, ha, hb⟩ := compareNumbers?_eq_eq.mp he
    exact ⟨_, .number ha, .number hb⟩

theorem compare?_of_loosely {a b : Value} {k : Exact} (h : ¬ (a.isFloat = true ∧ b.isFloat = true))
    (ha : Loosely a k) (hb : Loosely b k) : a.compare? b = some .eq := by
  cases ha with
  | null =>
    cases hb
    rfl
  | boolean p =>
    cases hb
    exact congrArg some (Std.LawfulEqCmp.compare_eq_iff_eq.mpr rfl)
  | string s =>
    cases hb
    exact congrArg some (Std.LawfulEqCmp.compare_eq_iff_eq.mpr rfl)
  | date d =>
    cases hb with
    | date => exact congrArg some (Date.compare_eq_eq.mpr rfl)
    | moment => exact congrArg some (DateTime.compare_eq_eq.mpr rfl)
  | moment t =>
    cases hb with
    | date => exact congrArg some (DateTime.compare_eq_eq.mpr rfl)
    | moment => exact congrArg some (DateTime.compare_eq_eq.mpr rfl)
  | number ha =>
    cases hb with
    | number hb => exact compare?_of_number h ha hb

theorem compare?_symm {a b : Value} (h : a.compare? b = some .eq) : b.compare? a = some .eq := by
  rw [compare?_swap a b, h]
  rfl

/-- What a value is to others, those equal to it are as well. -/
theorem Loosely.congr {a b : Value} {k : Exact} (h : a.compare? b = some .eq) (ha : Loosely a k) : Loosely b k := by
  by_cases hfloats : a.isFloat = true ∧ b.isFloat = true
  · obtain ⟨hx, hy⟩ := hfloats
    cases a <;> cases hx
    cases b <;> cases hy
    cases ha with
    | number hq => exact .number ((Decimal.value_of_place (Binary64.compare?_eq_eq.mp h).1).symm.trans hq)
  · obtain ⟨l, ha', hb⟩ := loosely_of_compare? hfloats h
    rw [ha.unique ha']
    exact hb

/-- Equality is transitive unless it leads from a float over another kind to a float. -/
theorem compare?_trans {a b c : Value} (hab : a.compare? b = some .eq) (hbc : b.compare? c = some .eq)
    (h : a.isFloat = true → c.isFloat = true → b.isFloat = false → a.compare? c = some .eq) :
    a.compare? c = some .eq := by
  -- Two floats at the ends are compared as floats, all else as what it is to others.
  by_cases hends : a.isFloat = true ∧ c.isFloat = true
  · cases hb : b.isFloat with
    | false => exact h hends.1 hends.2 hb
    | true =>
      obtain ⟨hx, hz⟩ := hends
      cases a <;> cases hx
      cases b <;> cases hb
      cases c <;> cases hz
      obtain ⟨hxy, hnan⟩ := Binary64.compare?_eq_eq.mp hab
      exact Binary64.compare?_eq_eq.mpr ⟨hxy.trans (Binary64.compare?_eq_eq.mp hbc).1, hnan⟩
  · obtain ⟨k, ha, hc⟩ : ∃ k, Loosely a k ∧ Loosely c k := by
      rcases not_and_or.mp hends with ha | hc
      · obtain ⟨k, hak, hbk⟩ := loosely_of_compare? (fun hboth => ha hboth.1) hab
        exact ⟨k, hak, hbk.congr hbc⟩
      · obtain ⟨k, hbk, hck⟩ := loosely_of_compare? (fun hboth => hc hboth.2) hbc
        exact ⟨k, hbk.congr (compare?_symm hab), hck⟩
    exact compare?_of_loosely hends ha hc

/-! ## (2) Lists and documents -/

theorem looseEq_cases {a b : Value} (h : a.looseEq b = true) :
    (∃ xs ys, a = .array xs ∧ b = .array ys ∧ looseEqItems xs ys = true) ∨
      (∃ fs gs, a = .object fs ∧ b = .object gs ∧ same a b = true) ∨ a.compare? b = some .eq := by
  revert h
  fun_cases looseEq a b with
  | case1 xs ys => exact fun h => .inl ⟨xs, ys, rfl, rfl, h⟩
  | case2 fs gs => exact fun h => .inr (.inl ⟨fs, gs, rfl, rfl, h⟩)
  | case3 => exact fun h => .inr (.inr (beq_iff_eq.mp h))

theorem looseEq_of_compare? {a b : Value} (h : a.compare? b = some .eq) : a.looseEq b = true := by
  revert h
  fun_cases looseEq a b with
  | case1 xs ys => exact nofun
  | case2 fs gs => exact nofun
  | case3 => exact beq_iff_eq.mpr

theorem looseEq_array {xs : List Value} {b : Value} (h : (Value.array xs).looseEq b = true) :
    ∃ ys, b = .array ys ∧ looseEqItems xs ys = true := by
  cases b with
  | array ys => exact ⟨ys, rfl, h⟩
  | _ => cases h

theorem looseEq_object {fs : List (String × Value)} {b : Value} (h : (Value.object fs).looseEq b = true) :
    ∃ gs, b = .object gs ∧ same (.object fs) (.object gs) = true := by
  cases b with
  | object gs => exact ⟨gs, rfl, h⟩
  | _ => cases h

theorem looseEq_of_isSome {v : Value} (h : (v.compare? v).isSome = true) : v.looseEq v = true := by
  have hself := compare?_self v
  obtain ⟨o, ho⟩ := Option.isSome_iff_exists.mp h
  rw [ho] at hself
  exact looseEq_of_compare? (ho.trans (congrArg some hself))

mutual

/-- A value without NaN is equal to itself. -/
theorem looseEq_self (v : Value) (h : v.hasNaN = false) : v.looseEq v = true := by
  match v with
  | .array vs => exact looseEqItems_self vs h
  | .object fs => exact same_self (v := .object fs) h
  | .float x =>
    cases x with
    | nan => cases h
    | _ => exact looseEq_of_isSome rfl
  | .null | .boolean _ | .integer _ | .decimal _ | .string _ | .date _ | .dateTime _ => exact looseEq_of_isSome rfl

theorem looseEqItems_self (vs : List Value) (h : itemsHaveNaN vs = false) : looseEqItems vs vs = true := by
  match vs with
  | [] => rfl
  | v :: vs =>
    obtain ⟨hv, hvs⟩ := Bool.or_eq_false_iff.mp h
    rw [looseEqItems, looseEq_self v hv, looseEqItems_self vs hvs]
    rfl

end

mutual

theorem looseEq_symm (a : Value) {b : Value} (h : a.looseEq b = true) : b.looseEq a = true := by
  match a with
  | .array xs =>
    obtain ⟨ys, rfl, hitems⟩ := looseEq_array h
    exact looseEqItems_symm xs hitems
  | .object fs =>
    obtain ⟨gs, rfl, hsame⟩ := looseEq_object h
    exact same_symm hsame
  | .null | .boolean _ | .integer _ | .float _ | .decimal _ | .string _ | .date _ | .dateTime _ =>
    rcases looseEq_cases h with ⟨_, _, h, _⟩ | ⟨_, _, h, _⟩ | h
    · cases h
    · cases h
    · exact looseEq_of_compare? (compare?_symm h)

theorem looseEqItems_symm (xs : List Value) {ys : List Value} (h : looseEqItems xs ys = true) :
    looseEqItems ys xs = true := by
  match xs, ys with
  | [], [] => rfl
  | x :: xs, y :: ys =>
    obtain ⟨hx, hxs⟩ := Bool.and_eq_true_iff.mp h
    rw [looseEqItems, looseEq_symm x hx, looseEqItems_symm xs hxs]
    rfl

end

theorem looseEq_comm (a b : Value) : a.looseEq b = b.looseEq a :=
  Bool.eq_iff_iff.mpr ⟨looseEq_symm a, looseEq_symm b⟩

/-! ## (3) Transitivity -/

mutual

/-- What a value is compared by: itself, or the parts of its items. -/
def parts : Value → List Value
  | .array items => itemParts items
  | v => [v]

def itemParts : List Value → List Value
  | [] => []
  | v :: vs => parts v ++ itemParts vs

end

theorem itemParts_eq_flatMap (vs : List Value) : itemParts vs = vs.flatMap parts := by
  induction vs with
  | nil => rfl
  | cons v vs ih => rw [itemParts, ih, List.flatMap_cons]

/-- No part of some values that is no float is equal to two floats that differ. -/
def Unbridged (vs : List Value) : Prop :=
  ∀ x ∈ itemParts vs, ∀ n ∈ itemParts vs, ∀ y ∈ itemParts vs, x.isFloat = true → n.isFloat = false → y.isFloat = true →
    x.looseEq n = true → n.looseEq y = true → x.looseEq y = true

instance (vs : List Value) : Decidable (Unbridged vs) :=
  inferInstanceAs (Decidable (∀ x ∈ itemParts vs, ∀ n ∈ itemParts vs, ∀ y ∈ itemParts vs,
    x.isFloat = true → n.isFloat = false → y.isFloat = true → x.looseEq n = true → n.looseEq y = true →
      x.looseEq y = true))

theorem Unbridged.mono {vs ws : List Value} (h : Unbridged ws) (hsub : ∀ v ∈ itemParts vs, v ∈ itemParts ws) :
    Unbridged vs :=
  fun x hx n hn y hy => h x (hsub x hx) n (hsub n hn) y (hsub y hy)

theorem Unbridged.of_subset {vs ws : List Value} (h : Unbridged ws) (hsub : ∀ v ∈ vs, v ∈ ws) : Unbridged vs := by
  refine h.mono fun p hp => ?_
  rw [itemParts_eq_flatMap, List.mem_flatMap] at hp ⊢
  obtain ⟨v, hv, hpart⟩ := hp
  exact ⟨v, hsub v hv, hpart⟩

/-- What compares is no list. -/
theorem parts_of_compare? {a b : Value} (h : a.compare? b = some .eq) : parts a = [a] := by
  cases a with
  | array xs => cases b <;> cases h
  | _ => rfl

/-- What compares with one value is loosely equal to others only by comparison. -/
theorem compare?_of_looseEq {a b c : Value} (h : a.compare? b = some .eq) (hbc : b.looseEq c = true) :
    b.compare? c = some .eq := by
  have hswap := compare?_symm h
  rcases looseEq_cases hbc with ⟨_, _, rfl, _⟩ | ⟨_, _, rfl, _⟩ | hcompare
  · cases a <;> cases hswap
  · cases a <;> cases hswap
  · exact hcompare

theorem looseEq_trans_of_compare? {a b c : Value} (h : Unbridged [a, b, c]) (hab : a.compare? b = some .eq)
    (hbc : b.looseEq c = true) : a.looseEq c = true := by
  have hbc' := compare?_of_looseEq hab hbc
  have hparts : itemParts [a, b, c] = [a, b, c] := by
    simp only [itemParts, parts_of_compare? hab, parts_of_compare? hbc', parts_of_compare? (compare?_symm hbc')]
    rfl
  rw [Unbridged, hparts] at h
  refine looseEq_of_compare? (compare?_trans hab hbc' fun ha hc hb => ?_)
  have hac := h a (by simp) b (by simp) c (by simp) ha hb hc (looseEq_of_compare? hab) hbc
  cases a with
  | float x =>
    rcases looseEq_cases hac with ⟨_, _, he, _⟩ | ⟨_, _, he, _⟩ | he
    · cases he
    · cases he
    · exact he
  | _ => cases ha

mutual

theorem looseEq_trans (a : Value) {b c : Value} (h : Unbridged [a, b, c]) (hab : a.looseEq b = true)
    (hbc : b.looseEq c = true) : a.looseEq c = true := by
  match a with
  | .array xs =>
    obtain ⟨ys, rfl, hxy⟩ := looseEq_array hab
    obtain ⟨zs, rfl, hyz⟩ := looseEq_array hbc
    exact looseEqItems_trans xs h hxy hyz
  | .object fs =>
    obtain ⟨gs, rfl, hxy⟩ := looseEq_object hab
    obtain ⟨hs, rfl, hyz⟩ := looseEq_object hbc
    exact same_trans hxy hyz
  | .null | .boolean _ | .integer _ | .float _ | .decimal _ | .string _ | .date _ | .dateTime _ =>
    rcases looseEq_cases hab with ⟨_, _, he, _⟩ | ⟨_, _, he, _⟩ | he
    · cases he
    · cases he
    · exact looseEq_trans_of_compare? h he hbc

theorem looseEqItems_trans (xs : List Value) {ys zs : List Value} (h : Unbridged [.array xs, .array ys, .array zs])
    (hxy : looseEqItems xs ys = true) (hyz : looseEqItems ys zs = true) : looseEqItems xs zs = true := by
  match xs, ys, zs with
  | [], [], [] => rfl
  | x :: xs, y :: ys, z :: zs =>
    obtain ⟨hx, hxs⟩ := Bool.and_eq_true_iff.mp hxy
    obtain ⟨hy, hys⟩ := Bool.and_eq_true_iff.mp hyz
    have hhead : Unbridged [x, y, z] := h.mono (by simp [itemParts, parts]; tauto)
    have htail : Unbridged [.array xs, .array ys, .array zs] := h.mono (by simp [itemParts, parts]; tauto)
    rw [looseEqItems, looseEq_trans x hhead hx hy, looseEqItems_trans xs htail hxs hys]
    rfl

end

/-- Equal values are equal to the same ones. -/
theorem looseEq_congr {a b c : Value} (h : Unbridged [a, b, c]) (hab : a.looseEq b = true) :
    a.looseEq c = b.looseEq c := by
  have hswapped : Unbridged [b, a, c] := h.of_subset (by simp [or_left_comm])
  refine Bool.eq_iff_iff.mpr ⟨fun hac => ?_, fun hbc => ?_⟩
  · exact looseEq_trans b hswapped (looseEq_symm a hab) hac
  · exact looseEq_trans a h hab hbc

/-- The float right below one. -/
def belowOne : Value := .float (.ofBits 0x3FEFFFFFFFFFFFFF)

/-- As a decimal, the float right below one is one. -/
theorem one_equals_two_floats : (Value.integer 1).looseEq (.float (.ofInt 1)) = true ∧
    (Value.integer 1).looseEq belowOne = true ∧ (Value.float (.ofInt 1)).looseEq belowOne = false := by
  decide +kernel

end Value

end EntityQuery
