/-
  EntityQuery.Proofs.Sorting — what sorting entities by keys gives.

  (1) Stable sorting. A list is another one stably sorted when it holds the same items,
  in order, and those equal to any one item as they stood (`StableSorted`). There is one
  such list at most (`StableSorted.unique`), so the order says which list it is, however
  it is sorted. Insertion sorts stably wherever the comparison is a total preorder of
  the items (`Orders`); of other items nothing is asked.

  (2) Sort keys. One entity comes before another by the first key that does not tie
  them (`SortKey.Before`). Keys order the entities when each column of values is ordered
  by comparison, or no two values of it compare (`Sortable`).
-/

import EntityQuery.Proofs.Comparison
import EntityQuery.Storage.Sorting
import Mathlib.Data.List.Pairwise

namespace EntityQuery

/-! ## (1) Stable sorting -/

structure StableSorted {α : Type} (cmp : α → α → Ordering) (xs ys : List α) : Prop where
  perm : ys.Perm xs
  ordered : ys.Pairwise fun a b => (cmp a b).isLE
  stable : ∀ a ∈ xs, ys.filter (cmp a · == .eq) = xs.filter (cmp a · == .eq)

/-- A comparison is a total preorder of the items of a list. -/
def Orders {α : Type} (cmp : α → α → Ordering) (xs : List α) : Prop := Std.TransCmp fun a b : { x // x ∈ xs } => cmp a b

section StableSort

variable {α β : Type} {cmp : α → α → Ordering}

/-- Ordered lists of the same items are one list, if each tells equal items in the same
    order. -/
theorem eq_of_ordered [Std.OrientedCmp cmp] {ys zs : List α} (hy : ys.Pairwise fun a b => (cmp a b).isLE)
    (hz : zs.Pairwise fun a b => (cmp a b).isLE) (hp : ys.Perm zs)
    (hf : ∀ a ∈ ys, ys.filter (cmp a · == .eq) = zs.filter (cmp a · == .eq)) : ys = zs := by
  induction ys generalizing zs with
  | nil => exact hp.symm.eq_nil.symm
  | cons a ys ih =>
    cases zs with
    | nil => cases hp.eq_nil
    | cons b zs =>
      obtain ⟨hay, hys⟩ := List.pairwise_cons.mp hy
      obtain ⟨hbz, hzs⟩ := List.pairwise_cons.mp hz
      have haa : cmp a a = .eq := Std.ReflCmp.compare_self
      -- each head comes in the other list, so neither is greater
      have hab : cmp a b = .eq := by
        rcases List.mem_cons.mp (hp.mem_iff.mpr List.mem_cons_self) with rfl | hb
        · exact haa
        rcases List.mem_cons.mp (hp.mem_iff.mp List.mem_cons_self) with rfl | ha
        · exact haa
        have hle := hay b hb
        have hge := hbz a ha
        have hswap : cmp b a = (cmp a b).swap := Std.OrientedCmp.eq_swap
        rw [hswap] at hge
        cases ho : cmp a b with
        | eq => rfl
        | lt => rw [ho] at hge; cases hge
        | gt => rw [ho] at hle; cases hle
      obtain rfl : a = b := by
        have h := hf a List.mem_cons_self
        simp only [List.filter_cons, haa, hab, beq_self_eq_true, if_true] at h
        exact (List.cons.inj h).1
      have htail : ∀ c ∈ ys, ys.filter (cmp c · == .eq) = zs.filter (cmp c · == .eq) := by
        intro c hc
        have h := hf c (List.mem_cons_of_mem _ hc)
        simp only [List.filter_cons] at h
        split at h
        · exact (List.cons.inj h).2
        · exact h
      rw [ih hys hzs hp.cons_inv htail]

theorem StableSorted.unique [Std.OrientedCmp cmp] {xs ys zs : List α} (hy : StableSorted cmp xs ys)
    (hz : StableSorted cmp xs zs) : ys = zs := by
  refine eq_of_ordered hy.ordered hz.ordered (hy.perm.trans hz.perm.symm) fun a ha => ?_
  have hx := hy.perm.mem_iff.mp ha
  exact (hy.stable a hx).trans (hz.stable a hx).symm

/-! ### Insertion -/

theorem insertBack_perm (before : α → α → Bool) (x : α) (ys : List α) : (insertBack before x ys).Perm (x :: ys) := by
  induction ys with
  | nil => exact .refl _
  | cons y ys ih =>
    unfold insertBack
    split
    · exact (ih.cons y).trans (.swap x y ys)
    · exact .refl _

/-- A list that is given back to front stays ordered. -/
theorem insertBack_ordered [Std.TransCmp cmp] (x : α) {ys : List α} (h : ys.Pairwise fun a b => (cmp b a).isLE) :
    (insertBack (fun a b => cmp a b == .lt) x ys).Pairwise fun a b => (cmp b a).isLE := by
  induction ys with
  | nil => exact List.pairwise_singleton _ _
  | cons y ys ih =>
    obtain ⟨hy, hys⟩ := List.pairwise_cons.mp h
    unfold insertBack
    split
    · next hlt =>
      refine List.pairwise_cons.mpr ⟨fun z hz => ?_, ih hys⟩
      rcases List.mem_cons.mp ((insertBack_perm _ x ys).mem_iff.mp hz) with rfl | hz
      · rw [beq_iff_eq.mp hlt]
        rfl
      · exact hy z hz
    · next hlt =>
      have hyx : (cmp y x).isLE := by
        have hswap : cmp y x = (cmp x y).swap := Std.OrientedCmp.eq_swap
        rw [hswap]
        cases ho : cmp x y with
        | lt => exact absurd (beq_iff_eq.mpr ho) hlt
        | eq => rfl
        | gt => rfl
      refine List.pairwise_cons.mpr ⟨fun z hz => ?_, h⟩
      rcases List.mem_cons.mp hz with rfl | hz
      · exact hyx
      · exact Std.TransCmp.isLE_trans (hy z hz) hyx

/-- An item is put in front of those equal to it: it goes past no item that equals any
    of them. -/
theorem insertBack_filter [Std.TransCmp cmp] (a x : α) (ys : List α) :
    (insertBack (fun a b => cmp a b == .lt) x ys).filter (cmp a · == .eq) = (x :: ys).filter (cmp a · == .eq) := by
  induction ys with
  | nil => rfl
  | cons y ys ih =>
    unfold insertBack
    split
    · next hlt =>
      rw [List.filter_cons, ih]
      by_cases hax : cmp a x = .eq
      · have hay : cmp a y = .lt := Std.TransCmp.lt_of_eq_of_lt hax (beq_iff_eq.mp hlt)
        simp [List.filter_cons, hay]
      · simp [List.filter_cons, hax]
    · rfl

section Fold

variable [Std.TransCmp cmp] (xs : List α)

theorem foldl_insertBack_perm (before : α → α → Bool) (back : List α) :
    (xs.foldl (fun back x => insertBack before x back) back).Perm (xs.reverse ++ back) := by
  induction xs generalizing back with
  | nil => exact .refl _
  | cons x xs ih =>
    refine (ih _).trans ?_
    rw [List.reverse_cons, List.append_assoc]
    exact (insertBack_perm before x back).append_left _

theorem foldl_insertBack_ordered {back : List α} (h : back.Pairwise fun a b => (cmp b a).isLE) :
    (xs.foldl (fun back x => insertBack (fun a b => cmp a b == .lt) x back) back).Pairwise
      fun a b => (cmp b a).isLE := by
  induction xs generalizing back with
  | nil => exact h
  | cons x xs ih => exact ih (insertBack_ordered x h)

theorem foldl_insertBack_filter (a : α) (back : List α) :
    (xs.foldl (fun back x => insertBack (fun a b => cmp a b == .lt) x back) back).filter (cmp a · == .eq) =
      (xs.reverse ++ back).filter (cmp a · == .eq) := by
  induction xs generalizing back with
  | nil => rfl
  | cons x xs ih =>
    refine (ih _).trans ?_
    rw [List.reverse_cons, List.append_assoc, List.filter_append, insertBack_filter, List.filter_append]
    rfl

theorem stableSort_stableSorted : StableSorted cmp xs (stableSort (fun a b => cmp a b == .lt) xs) := by
  refine ⟨?_, ?_, fun a _ => ?_⟩
  · have h := foldl_insertBack_perm xs (fun a b => cmp a b == .lt) []
    rw [List.append_nil] at h
    exact (List.reverse_perm _).trans (h.trans (List.reverse_perm xs))
  · exact List.pairwise_reverse.mpr (foldl_insertBack_ordered xs .nil)
  · rw [stableSort, List.filter_reverse, foldl_insertBack_filter, List.append_nil, List.filter_reverse,
      List.reverse_reverse]

end Fold

/-! ### Items of a list -/

theorem insertBack_map (f : β → α) (before : α → α → Bool) (x : β) (ys : List β) :
    (insertBack (fun a b => before (f a) (f b)) x ys).map f = insertBack before (f x) (ys.map f) := by
  induction ys with
  | nil => rfl
  | cons y ys ih =>
    simp only [insertBack, List.map_cons]
    split
    · rw [List.map_cons, ih]
    · rfl

theorem stableSort_map (f : β → α) (before : α → α → Bool) (xs : List β) :
    (stableSort (fun a b => before (f a) (f b)) xs).map f = stableSort before (xs.map f) := by
  have h : ∀ back : List β, (xs.foldl (fun back x => insertBack (fun a b => before (f a) (f b)) x back) back).map f =
      (xs.map f).foldl (fun back x => insertBack before x back) (back.map f) := by
    induction xs with
    | nil => exact fun _ => rfl
    | cons x xs ih =>
      intro back
      rw [List.foldl_cons, ih, insertBack_map]
      rfl
  rw [stableSort, List.map_reverse, h]
  rfl

theorem StableSorted.map {f : β → α} {xs ys : List β} (h : StableSorted (fun a b => cmp (f a) (f b)) xs ys) :
    StableSorted cmp (xs.map f) (ys.map f) := by
  refine ⟨h.perm.map f, List.pairwise_map.mpr h.ordered, fun a ha => ?_⟩
  obtain ⟨b, hb, rfl⟩ := List.mem_map.mp ha
  rw [List.filter_map, List.filter_map]
  exact congrArg (List.map f) (h.stable b hb)

/-- Insertion sorts what the comparison orders. -/
theorem Orders.stableSorted {xs : List α} (h : Orders cmp xs) :
    StableSorted cmp xs (stableSort (fun a b => cmp a b == .lt) xs) := by
  have htrans : Std.TransCmp fun a b : { x // x ∈ xs } => cmp a b := h
  have hs : StableSorted cmp (xs.attach.map Subtype.val) _ := (stableSort_stableSorted xs.attach).map
  rw [stableSort_map Subtype.val fun a b => cmp a b == .lt, List.attach_map_subtype_val] at hs
  exact hs

end StableSort

/-! ## (2) Sort keys -/

namespace SortKey

variable (s : SortKey) (sorts : List SortKey) (a b : Entity)

def Precedes : Prop :=
  match s.direction with
  | .asc => (a.read s.field).compare? (b.read s.field) = some .lt
  | .desc => (a.read s.field).compare? (b.read s.field) = some .gt

def Ties : Prop :=
  (a.read s.field).compare? (b.read s.field) = some .eq ∨ (a.read s.field).compare? (b.read s.field) = none

/-- By the first key that does not tie them. -/
def Before : Prop :=
  ∃ ahead s behind, sorts = ahead ++ s :: behind ∧ (∀ t ∈ ahead, Ties t a b) ∧ s.Precedes a b

theorem compare_eq_lt : s.compare a b = .lt ↔ s.Precedes a b := by
  unfold compare Precedes
  cases s.direction <;> rcases (a.read s.field).compare? (b.read s.field) with _ | _ | _ | _ <;> simp

theorem compare_eq_eq : s.compare a b = .eq ↔ s.Ties a b := by
  unfold compare Ties
  cases s.direction <;> rcases (a.read s.field).compare? (b.read s.field) with _ | _ | _ | _ <;> simp

theorem compare_swap : s.compare a b = (s.compare b a).swap := by
  unfold compare
  rw [Value.compare?_swap (b.read s.field)]
  cases s.direction <;> rcases (b.read s.field).compare? (a.read s.field) with _ | _ | _ | _ <;> rfl

theorem ties_self : s.Ties a a := by
  have h := Value.compare?_self (a.read s.field)
  unfold Ties
  cases ho : (a.read s.field).compare? (a.read s.field) with
  | none => exact .inr rfl
  | some o => rw [ho] at h; exact .inl (congrArg some h)

theorem ties_symm {s : SortKey} {a b : Entity} (h : s.Ties a b) : s.Ties b a := by
  rw [← compare_eq_eq] at h ⊢
  rw [compare_swap, h]
  rfl

theorem compareAll_swap : compareAll sorts a b = (compareAll sorts b a).swap := by
  induction sorts with
  | nil => rfl
  | cons s sorts ih => rw [compareAll, compareAll, Ordering.swap_then, ← compare_swap, ← ih]

instance : Std.OrientedCmp (compareAll sorts) := ⟨fun {a b} => compareAll_swap sorts a b⟩

theorem compareAll_eq_eq : compareAll sorts a b = .eq ↔ ∀ s ∈ sorts, s.Ties a b := by
  induction sorts with
  | nil => simp [compareAll]
  | cons s sorts ih => rw [compareAll, Ordering.then_eq_eq, ih, compare_eq_eq, List.forall_mem_cons]

theorem compareAll_eq_lt : compareAll sorts a b = .lt ↔ Before sorts a b := by
  induction sorts with
  | nil => simp [compareAll, Before]
  | cons s sorts ih =>
    rw [compareAll, Ordering.then_eq_lt, ih, compare_eq_lt, compare_eq_eq]
    constructor
    · rintro (h | ⟨htie, ahead, t, behind, rfl, hahead, ht⟩)
      · exact ⟨[], s, sorts, rfl, nofun, h⟩
      · exact ⟨s :: ahead, t, behind, rfl, List.forall_mem_cons.mpr ⟨htie, hahead⟩, ht⟩
    · rintro ⟨ahead, t, behind, hsorts, hahead, ht⟩
      cases ahead with
      | nil =>
        obtain ⟨rfl, rfl⟩ := List.cons.inj hsorts
        exact .inl ht
      | cons u ahead =>
        obtain ⟨rfl, rfl⟩ := List.cons.inj hsorts
        obtain ⟨htie, hahead⟩ := List.forall_mem_cons.mp hahead
        exact .inr ⟨htie, ahead, t, behind, rfl, hahead, ht⟩

end SortKey

/-! ### Columns -/

/-- What a key reads from the entities. -/
def column (field : String) (es : List Entity) : List Value := es.map (·.read field)

/-- Any two values compare, and comparison is transitive. -/
structure TotallyOrdered (vs : List Value) : Prop where
  comparable : ∀ a ∈ vs, ∀ b ∈ vs, (a.compare? b).isSome
  trans : ∀ a ∈ vs, ∀ b ∈ vs, ∀ c ∈ vs, Filter.atMost (a.compare? b) → Filter.atMost (b.compare? c) →
    Filter.atMost (a.compare? c)

def Incomparable (vs : List Value) : Prop := vs.Pairwise fun a b => a.compare? b = none

def Sortable (sorts : List SortKey) (es : List Entity) : Prop :=
  ∀ s ∈ sorts, TotallyOrdered (column s.field es) ∨ Incomparable (column s.field es)

namespace SortKey

variable {s : SortKey} {sorts : List SortKey} {es : List Entity}

theorem isLE_compare {a b : Entity} (h : ((a.read s.field).compare? (b.read s.field)).isSome) :
    (s.compare a b).isLE ↔ match s.direction with
      | .asc => Filter.atMost ((a.read s.field).compare? (b.read s.field))
      | .desc => Filter.atMost ((b.read s.field).compare? (a.read s.field)) := by
  rw [Value.compare?_swap (a.read s.field) (b.read s.field)]
  unfold compare
  cases s.direction <;> revert h <;>
    rcases (a.read s.field).compare? (b.read s.field) with _ | _ | _ | _ <;> decide

theorem orders_of_totallyOrdered (h : TotallyOrdered (column s.field es)) : Orders s.compare es := by
  have hmem : ∀ a : { e // e ∈ es }, a.1.read s.field ∈ column s.field es :=
    fun a => List.mem_map_of_mem a.2
  have hsome := fun a b : { e // e ∈ es } => h.comparable _ (hmem a) _ (hmem b)
  refine { eq_swap := compare_swap s _ _, isLE_trans := fun {a b c} hab hbc => ?_ }
  rw [isLE_compare (hsome a b)] at hab
  rw [isLE_compare (hsome b c)] at hbc
  rw [isLE_compare (hsome a c)]
  cases hd : s.direction with
  | asc =>
    rw [hd] at hab hbc
    exact h.trans _ (hmem a) _ (hmem b) _ (hmem c) hab hbc
  | desc =>
    rw [hd] at hab hbc
    exact h.trans _ (hmem c) _ (hmem b) _ (hmem a) hbc hab

/-- A column of which no two values compare ties all entities. -/
theorem orders_of_incomparable (h : Incomparable (column s.field es)) : Orders s.compare es := by
  have hsymm : Std.Symm s.Ties := ⟨fun _ _ => ties_symm⟩
  have hpairs : es.Pairwise s.Ties := (List.pairwise_map.mp h).imp Or.inr
  have heq : (fun a b : { e // e ∈ es } => s.compare a b) = fun _ _ => .eq := by
    funext a b
    exact (compare_eq_eq s a b).mpr (hpairs.forall_of_forall (fun e _ => ties_self s e) a.2 b.2)
  rw [Orders, heq]
  exact { eq_swap := rfl, isLE_trans := fun _ _ => rfl }

theorem orders_compareAll (h : Sortable sorts es) : Orders (compareAll sorts) es := by
  induction sorts with
  | nil => exact { eq_swap := rfl, isLE_trans := fun _ _ => rfl }
  | cons s sorts ih =>
    obtain ⟨hs, hsorts⟩ := List.forall_mem_cons.mp h
    have hfirst : Std.TransCmp fun a b : { e // e ∈ es } => s.compare a b := by
      rcases hs with hs | hs
      · exact orders_of_totallyOrdered hs
      · exact orders_of_incomparable hs
    have hrest : Std.TransCmp fun a b : { e // e ∈ es } => compareAll sorts a b := ih hsorts
    exact inferInstanceAs (Std.TransCmp (compareLex _ _))

/-- Entities with sortable columns are sorted stably by the keys. -/
theorem sort_stableSorted (h : Sortable sorts es) : StableSorted (compareAll sorts) es (sort sorts es) :=
  (orders_compareAll h).stableSorted

/-- Without keys nothing is moved. -/
theorem sort_nil (es : List Entity) : sort [] es = es :=
  (sort_stableSorted (List.forall_mem_nil _)).unique ⟨.refl es, List.pairwise_of_forall fun _ _ => rfl, fun _ _ => rfl⟩

end SortKey

end EntityQuery
