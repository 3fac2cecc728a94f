/-
  EntityQuery.Proofs.ComparisonOrder — comparison as an order
  (`Value.comparison_laws`).

  (1) Ascents. Three things of a linear order that do not descend are compared from end
  to end as the two steps together say (`compare_of_ascent`). Dates and times are in
  such an order, part by part.

  (2) Lines. A value stands on the line of its kind: numbers that are no floats as the
  rational numbers they are, floats by their places, dates among the moments. Values
  compare as they stand there (`Value.compare?_eq_standing`), unless a float is beside
  another number (`Value.Unmixed`). So comparison is transitive (`Value.compare?_ascent`).

  (3) A value is loosely equal to itself exactly if there is no NaN in it
  (`Value.looseEq_self_iff`).
-/

import EntityQuery.Proofs.NumericOrder

namespace EntityQuery

/-! ## (1) Ascents -/

section Ascent

variable {α β : Type} {cmp : α → α → Ordering} [Std.TransCmp cmp]

theorem compare_of_ascent {a b c : α} (hab : (cmp a b).isLE = true) (hbc : (cmp b c).isLE = true) :
    cmp a c = (cmp a b).then (cmp b c) := by
  cases h : cmp a b with
  | lt => exact Std.TransCmp.lt_of_lt_of_isLE h hbc
  | eq => exact Std.TransCmp.congr_left h
  | gt => rw [h] at hab; cases hab

/-- What is compared by a part that is in order is in order. -/
theorem transCmp_of_part (part : β → α) : Std.TransCmp fun a b => cmp (part a) (part b) where
  eq_swap {t u} := by
    show cmp (part t) (part u) = (cmp (part u) (part t)).swap
    exact Std.OrientedCmp.eq_swap
  isLE_trans {t u v} htu huv := by
    show (cmp (part t) (part v)).isLE = true
    exact Std.TransCmp.isLE_trans htu huv

end Ascent

instance : Std.TransCmp Date.compare :=
  inferInstanceAs (Std.TransCmp (compareLex (compareOn Date.year) (compareLex (compareOn Date.month) (compareOn Date.day))))

instance : Std.TransCmp TimeOfDay.compare :=
  inferInstanceAs (Std.TransCmp (compareLex (compareOn TimeOfDay.hour) (compareLex (compareOn TimeOfDay.minute)
    (compareLex (compareOn TimeOfDay.second) (compareOn TimeOfDay.nanosecond)))))

instance : Std.TransCmp DateTime.compare :=
  have : Std.TransCmp fun t u : DateTime => t.date.compare u.date := transCmp_of_part DateTime.date
  have : Std.TransCmp fun t u : DateTime => t.time.compare u.time := transCmp_of_part DateTime.time
  inferInstanceAs (Std.TransCmp (compareLex (fun t u : DateTime => t.date.compare u.date)
    (fun t u : DateTime => t.time.compare u.time)))

/-- A date lies among the dates as its midnight lies among the moments. -/
theorem DateTime.compare_ofDate (d e : Date) : (DateTime.ofDate d).compare (.ofDate e) = d.compare e := by
  have hmidnight : TimeOfDay.midnight.compare .midnight = .eq := TimeOfDay.compare_eq_eq.mpr rfl
  show (d.compare e).then (TimeOfDay.midnight.compare .midnight) = d.compare e
  rw [hmidnight, Ordering.then_eq]

/-! ## (2) Lines -/

/-- Where a value stands among those that it compares with. -/
inductive Standing where
  | null
  | truth (b : Bool)
  | number (q : ℚ)
  | place (p : Int)
  | text (s : String)
  | moment (t : DateTime)

/-- Each line has its order, and nothing compares across lines. -/
def Standing.compare? : Standing → Standing → Option Ordering
  | .null, .null => some .eq
  | .truth a, .truth b => some (Ord.compare a b)
  | .number a, .number b => some (Ord.compare a b)
  | .place a, .place b => some (Ord.compare a b)
  | .text a, .text b => some (Ord.compare a b)
  | .moment a, .moment b => some (a.compare b)
  | _, _ => none

theorem Standing.compare?_ascent {r s t : Standing} {o p : Ordering} (hrs : r.compare? s = some o)
    (hst : s.compare? t = some p) (ho : o.isLE = true) (hp : p.isLE = true) : r.compare? t = some (o.then p) := by
  -- what compares stands on one line, so six lines are left
  cases r <;> cases s <;> cases hrs <;> cases t <;> cases hst
  case null => rfl
  all_goals exact congrArg some (compare_of_ascent ho hp)

theorem Standing.compare?_swap (r s : Standing) : s.compare? r = (r.compare? s).map Ordering.swap := by
  cases r with
  | null => cases s <;> rfl
  | truth a =>
    cases s with
    | truth b => exact congrArg some Std.OrientedOrd.eq_swap
    | _ => rfl
  | number p =>
    cases s with
    | number q => exact congrArg some Std.OrientedOrd.eq_swap
    | _ => rfl
  | place p =>
    cases s with
    | place q => exact congrArg some Std.OrientedOrd.eq_swap
    | _ => rfl
  | text a =>
    cases s with
    | text b => exact congrArg some Std.OrientedOrd.eq_swap
    | _ => rfl
  | moment t =>
    cases s with
    | moment u => exact congrArg some (DateTime.compare_swap t u)
    | _ => rfl

namespace Value

/-- Where a value stands; lists, documents and NaN stand nowhere. -/
def standing? : Value → Option Standing
  | .null => some .null
  | .boolean b => some (.truth b)
  | .integer n => some (.number n.toInt)
  | .float x => x.place?.map .place
  | .decimal d => some (.number d.value)
  | .string s => some (.text s)
  | .date d => some (.moment (.ofDate d))
  | .dateTime t => some (.moment t)
  | .array _ | .object _ => none

/-- Whether a value is a number other than a float. -/
def isExactNumber : Value → Bool
  | .integer _ | .decimal _ => true
  | _ => false

/-- No float stands beside an integer or a decimal. -/
def Unmixed (vs : List Value) : Prop := ∀ v ∈ vs, ∀ w ∈ vs, v.isFloat = true → w.isExactNumber = false

instance (vs : List Value) : Decidable (Unmixed vs) :=
  inferInstanceAs (Decidable (∀ v ∈ vs, ∀ w ∈ vs, v.isFloat = true → w.isExactNumber = false))

theorem Unmixed.of_subset {vs ws : List Value} (h : Unmixed ws) (hsub : ∀ v ∈ vs, v ∈ ws) : Unmixed vs :=
  fun v hv w hw => h v (hsub v hv) w (hsub w hw)

/-- How two values compare as they stand. -/
def compareStandings? (a b : Value) : Option Ordering :=
  a.standing?.bind fun r => b.standing?.bind r.compare?

theorem compareStandings?_swap (a b : Value) :
    b.compareStandings? a = (a.compareStandings? b).map Ordering.swap := by
  unfold compareStandings?
  cases a.standing? with
  | none => cases b.standing? <;> rfl
  | some r =>
    cases b.standing? with
    | none => rfl
    | some s => exact Standing.compare?_swap r s

theorem compare?_float {x : Binary64} {b : Value} (h : b.isExactNumber = false) :
    (Value.float x).compare? b = (Value.float x).compareStandings? b := by
  cases b with
  | float y =>
    simp only [compare?, Binary64.compare?, compareStandings?, standing?]
    cases x.place? <;> cases y.place? <;> rfl
  | integer n => cases h
  | decimal d => cases h
  | _ =>
    -- whether or not there is a decimal near the float, there is none of the other value
    simp only [compare?, compareNumbers?, compareStandings?, standing?]
    cases x.place? <;> cases (Value.float x).asDecimal? <;> rfl

theorem compare?_of_no_floats {a b : Value} (ha : a.isFloat = false) (hb : b.isFloat = false) :
    a.compare? b = a.compareStandings? b := by
  cases a with
  | float x => cases ha
  | integer n =>
    cases b with
    | float y => cases hb
    | integer m => exact compare?_of_numbers (not_both_floats rfl) (number?_integer n) (number?_integer m)
    | decimal e => exact compare?_of_numbers (not_both_floats rfl) (number?_integer n) rfl
    | _ => rfl
  | decimal d =>
    cases b with
    | float y => cases hb
    | integer m => exact compare?_of_numbers (not_both_floats rfl) rfl (number?_integer m)
    | decimal e => exact congrArg some (Decimal.compare_eq_compare d e)
    | _ => rfl
  | date d =>
    cases b with
    | float y => cases hb
    | date e => exact congrArg some (DateTime.compare_ofDate d e).symm
    | _ => rfl
  | null | boolean _ | string _ | dateTime _ | array _ | object _ =>
    cases b with
    | float y => cases hb
    | _ => rfl

theorem compare?_eq_standing {a b : Value} (h : Unmixed [a, b]) : a.compare? b = a.compareStandings? b := by
  have hab : a.isFloat = true → b.isExactNumber = false := h a (by simp) b (by simp)
  have hba : b.isFloat = true → a.isExactNumber = false := h b (by simp) a (by simp)
  cases ha : a.isFloat with
  | true =>
    cases a with
    | float x => exact compare?_float (hab rfl)
    | _ => cases ha
  | false =>
    cases hb : b.isFloat with
    | true =>
      cases b with
      | float y => rw [compare?_swap (.float y) a, compare?_float (hba rfl), ← compareStandings?_swap]
      | _ => cases hb
    | false => exact compare?_of_no_floats ha hb

theorem compare?_ascent {a b c : Value} {o p : Ordering} (h : Unmixed [a, b, c]) (hab : a.compare? b = some o)
    (hbc : b.compare? c = some p) (ho : o.isLE = true) (hp : p.isLE = true) : a.compare? c = some (o.then p) := by
  rw [compare?_eq_standing (h.of_subset (by simp))] at hab hbc
  rw [compare?_eq_standing (h.of_subset (by simp))]
  obtain ⟨r, hr, hab⟩ := Option.bind_eq_some_iff.mp hab
  obtain ⟨s, hs, hrs⟩ := Option.bind_eq_some_iff.mp hab
  obtain ⟨s', hs', hbc⟩ := Option.bind_eq_some_iff.mp hbc
  obtain ⟨t, ht, hst⟩ := Option.bind_eq_some_iff.mp hbc
  obtain rfl : s = s' := Option.some.inj (hs.symm.trans hs')
  rw [compareStandings?, hr, ht]
  exact Standing.compare?_ascent hrs hst ho hp

/-! ## (3) Self-equality -/

mutual

theorem not_hasNaN_of_looseEq_self (v : Value) (h : v.looseEq v = true) : v.hasNaN = false := by
  match v with
  | .array vs => exact not_itemsHaveNaN_of_looseEq_self vs h
  | .object fs => exact ((same_eq_true (.object fs) (.object fs)).mp h).1
  | .float x =>
    cases x with
    | nan => cases h
    | _ => rfl
  | .null | .boolean _ | .integer _ | .decimal _ | .string _ | .date _ | .dateTime _ => rfl

theorem not_itemsHaveNaN_of_looseEq_self (vs : List Value) (h : looseEqItems vs vs = true) : itemsHaveNaN vs = false := by
  match vs with
  | [] => rfl
  | v :: vs =>
    obtain ⟨hv, hvs⟩ := Bool.and_eq_true_iff.mp h
    rw [itemsHaveNaN, not_hasNaN_of_looseEq_self v hv, not_itemsHaveNaN_of_looseEq_self vs hvs]
    rfl

end

theorem looseEq_self_iff (v : Value) : v.looseEq v = true ↔ v.hasNaN = false :=
  ⟨not_hasNaN_of_looseEq_self v, looseEq_self v⟩

/-- Comparing the other way round gives the reversed order. Loose equality is symmetric,
    and a value is loosely equal to itself exactly if there is no NaN in it. Where no
    float is beside another number, what does not descend over two steps does not descend
    from end to end, and stays level only if both steps do. -/
theorem comparison_laws (a b c : Value) :
    b.compare? a = (a.compare? b).map Ordering.swap ∧
    a.looseEq b = b.looseEq a ∧
    (a.looseEq a = true ↔ a.hasNaN = false) ∧
    (Unmixed [a, b, c] → ∀ o p, a.compare? b = some o → b.compare? c = some p → o.isLE = true → p.isLE = true →
      ∃ q, a.compare? c = some q ∧ q.isLE = true ∧ (q = .eq ↔ o = .eq ∧ p = .eq)) := by
  refine ⟨compare?_swap a b, looseEq_comm a b, looseEq_self_iff a, ?_⟩
  intro h o p hab hbc ho hp
  refine ⟨o.then p, compare?_ascent h hab hbc ho hp, ?_, Ordering.then_eq_eq⟩
  cases o with
  | lt => rfl
  | eq => exact hp
  | gt => cases ho

/-- A date, its midnight, and a leap second of the same day. -/
theorem comparison_laws_dates :
    let day : Date := ⟨2016, 12, 31, by decide, by decide, by decide⟩
    let leap : DateTime := ⟨day, ⟨23, 59, 60, 0, by decide, by decide, by decide, by decide⟩⟩
    Unmixed [.date day, .dateTime (.ofDate day), .dateTime leap] ∧
      (Value.date day).compare? (.dateTime (.ofDate day)) = some .eq ∧
      (Value.dateTime (.ofDate day)).compare? (.dateTime leap) = some .lt ∧
      (Value.date day).compare? (.dateTime leap) = some .lt := by
  intro day leap
  have hunmixed : Unmixed [.date day, .dateTime (.ofDate day), .dateTime leap] := by decide
  have hab : (Value.date day).compare? (.dateTime (.ofDate day)) = some .eq := by decide
  have hbc : (Value.dateTime (.ofDate day)).compare? (.dateTime leap) = some .lt := by decide
  obtain ⟨-, -, -, hascent⟩ := comparison_laws (.date day) (.dateTime (.ofDate day)) (.dateTime leap)
  obtain ⟨q, hq, hle, hlevel⟩ := hascent hunmixed .eq .lt hab hbc rfl rfl
  refine ⟨hunmixed, hab, hbc, ?_⟩
  cases q with
  | lt => exact hq
  | eq => cases (hlevel.mp rfl).2
  | gt => cases hle

end Value

end EntityQuery
