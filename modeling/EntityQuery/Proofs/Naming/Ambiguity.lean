/-
  EntityQuery.Proofs.Naming.Ambiguity — when a name finds the same table in whatever
  order a registry visits its tables (`answers_in_any_order`).

  A class name is that of one table at most, so the order is nothing to it
  (`find?_of_class`). A native name finds the first of the tables that have it, and
  each of them is first in some order (`exists_reordering`). A call is settled when these
  tables agree on its answer (`Registry.Settles`); the native name of an entity always
  is, since a native name stands for itself.

  Two tables may have one native name, and then a field of that name is mapped by one or
  the other (`shared_native_name`).
-/

import EntityQuery.Proofs.Naming.Memory
import Mathlib.Data.List.Perm.Lattice

namespace EntityQuery.Naming

namespace Registry

/-- The same tables, visited in another order. -/
def Reorders (s r : Registry) : Prop := s.entities.Perm r.entities

def HasClass (r : Registry) (name : String) : Prop := ∃ m ∈ r.entities, m.className = name

/-- The tables of a native name agree on something. -/
def NativesAgree {α : Type} (r : Registry) (name : String) (f : EntityMapping → α) : Prop :=
  ∀ m ∈ r.entities, ∀ m' ∈ r.entities, m.native = name → m'.native = name → f m = f m'

/-- All tables that a call may come to give one answer. -/
def Settles (r : Registry) : Call → Prop
  | .ask (.entity _) => True
  | .ask (.field entity name) => r.HasClass entity ∨ r.NativesAgree entity (·.nativeField name)
  | .resolver entity => r.HasClass entity ∨ r.NativesAgree entity id

/-! ## Class names differ -/

/-- No two tables have one class name. -/
def ClassesDiffer (r : Registry) : Prop := (r.entities.map (·.className)).Nodup

theorem ClassesDiffer.register {r : Registry} (h : r.ClassesDiffer) (m : EntityMapping) :
    (r.register m).ClassesDiffer := by
  unfold Registry.register
  split
  · have hsame : (r.entities.map fun e => if e.className == m.className then m else e).map (·.className) =
        r.entities.map (·.className) := by
      rw [List.map_map]
      refine List.map_congr_left fun e _ => ?_
      show (if e.className == m.className then m else e).className = e.className
      split
      · next he => exact (beq_iff_eq.mp he).symm
      · rfl
    rw [ClassesDiffer, hsame]
    exact h
  · next hnew =>
    have hfresh : m.className ∉ r.entities.map (·.className) := by simpa using hnew
    rw [ClassesDiffer, List.map_append, List.map_singleton, ← List.concat_eq_append]
    exact List.Nodup.concat hfresh h

theorem classesDiffer_ofList (ms : List EntityMapping) : (ofList ms).ClassesDiffer := by
  have h : ∀ r : Registry, r.ClassesDiffer → (ms.foldl register r).ClassesDiffer := by
    induction ms with
    | nil => exact fun _ h => h
    | cons m ms ih => exact fun r h => ih _ (h.register m)
  exact h empty .nil

/-! ## Finding a table -/

section Finding

variable {r s : Registry} {name : String}

theorem find?_eq_some_of_class (h : r.ClassesDiffer) {m : EntityMapping} (hm : m ∈ r.entities)
    (hname : m.className = name) : r.find? name = some m := by
  have hfound : r.entities.find? (·.className == name) = some m := by
    cases hm' : r.entities.find? (·.className == name) with
    | none => exact absurd (beq_iff_eq.mpr hname) (List.find?_eq_none.mp hm' m hm)
    | some m' =>
      have hname' : m'.className = name := by simpa using List.find?_some hm'
      rw [List.inj_on_of_nodup_map h (List.mem_of_find?_eq_some hm') hm (hname'.trans hname.symm)]
  rw [find?, hfound, Option.some_or]

theorem find?_of_not_class (h : ¬ r.HasClass name) : r.find? name = r.entities.find? (·.native == name) := by
  have hnone : r.entities.find? (·.className == name) = none :=
    List.find?_eq_none.mpr fun m hm hc => h ⟨m, hm, beq_iff_eq.mp hc⟩
  rw [find?, hnone, Option.none_or]

theorem Reorders.hasClass_iff (h : s.Reorders r) : s.HasClass name ↔ r.HasClass name := by
  simp only [HasClass, h.mem_iff]

/-- Under a class name, every order finds the same table. -/
theorem find?_of_class (hr : r.ClassesDiffer) (h : s.Reorders r) (hclass : r.HasClass name) :
    s.find? name = r.find? name := by
  obtain ⟨m, hm, hname⟩ := hclass
  have hs : s.ClassesDiffer := (h.map _).nodup_iff.mpr hr
  rw [find?_eq_some_of_class hr hm hname, find?_eq_some_of_class hs (h.mem_iff.mpr hm) hname]

/-- Under any other name, an order finds a table of that native name, if there is one. -/
theorem find?_cases (h : s.Reorders r) (hclass : ¬ r.HasClass name) :
    (s.find? name = none ∧ ∀ m ∈ r.entities, m.native ≠ name) ∨
      ∃ m ∈ r.entities, m.native = name ∧ s.find? name = some m := by
  rw [find?_of_not_class fun hs => hclass (h.hasClass_iff.mp hs)]
  cases hm : s.entities.find? (·.native == name) with
  | none => exact .inl ⟨rfl, fun m hr hn => List.find?_eq_none.mp hm m (h.mem_iff.mpr hr) (beq_iff_eq.mpr hn)⟩
  | some m =>
    exact .inr ⟨m, h.mem_iff.mp (List.mem_of_find?_eq_some hm), by simpa using List.find?_some hm, rfl⟩

/-- Each table of a native name is found in some order. -/
theorem exists_reordering (hclass : ¬ r.HasClass name) {m : EntityMapping} (hm : m ∈ r.entities)
    (hname : m.native = name) : ∃ s : Registry, s.Reorders r ∧ s.find? name = some m := by
  have h : Reorders ⟨m :: r.entities.erase m⟩ r := (List.perm_cons_erase hm).symm
  refine ⟨_, h, ?_⟩
  rw [find?_of_not_class fun hs => hclass (h.hasClass_iff.mp hs)]
  exact List.find?_cons_of_pos (beq_iff_eq.mpr hname)

/-- What is made of the table that is found is the same in any order exactly when all
    tables that may be found agree on it. -/
theorem finds_alike_iff {α : Type} (hr : r.ClassesDiffer) (name : String) (f : EntityMapping → α) :
    (∀ s : Registry, s.Reorders r → (s.find? name).map f = (r.find? name).map f) ↔
      r.HasClass name ∨ r.NativesAgree name f := by
  by_cases hclass : r.HasClass name
  · exact iff_of_true (fun s h => congrArg _ (find?_of_class hr h hclass)) (.inl hclass)
  · rw [or_iff_right hclass]
    constructor
    · intro h m hm m' hm' hname hname'
      obtain ⟨s, hs, hfound⟩ := exists_reordering hclass hm hname
      obtain ⟨s', hs', hfound'⟩ := exists_reordering hclass hm' hname'
      have heq := (h s hs).trans (h s' hs').symm
      rw [hfound, hfound'] at heq
      exact Option.some.inj heq
    · intro h s hs
      rcases find?_cases hs hclass with ⟨hnone, hno⟩ | ⟨m, hm, hname, hfound⟩
      · rcases find?_cases (.refl r.entities) hclass with ⟨hnone', -⟩ | ⟨m', hm', hname', -⟩
        · rw [hnone, hnone']
        · exact absurd hname' (hno m' hm')
      · rcases find?_cases (.refl r.entities) hclass with ⟨-, hno⟩ | ⟨m', hm', hname', hfound'⟩
        · exact absurd hname (hno m hm)
        · rw [hfound, hfound']
          exact congrArg some (h m hm m' hm' hname hname')

theorem isSome_find? (hr : r.ClassesDiffer) (h : s.Reorders r) (name : String) :
    (s.find? name).isSome = (r.find? name).isSome := by
  have halike := (finds_alike_iff hr name fun _ => ()).mpr (.inr fun _ _ _ _ _ _ => rfl) s h
  simpa using congrArg Option.isSome halike

/-- A call is answered alike in any order exactly when it is settled. -/
theorem answers_alike_iff (hr : r.ClassesDiffer) (c : Call) :
    (∀ s : Registry, s.Reorders r → s.answer c = r.answer c) ↔ r.Settles c := by
  cases c with
  | ask q =>
    cases q with
    | entity name =>
      -- found by its native name, an entity keeps that name
      have halike := (finds_alike_iff hr name (·.native)).mpr (.inr fun m _ m' _ hm hm' => hm.trans hm'.symm)
      exact iff_of_true (fun s h => congrArg (fun n : Option String => Answer.native (n.getD name)) (halike s h)) trivial
    | field entity name =>
      refine Iff.trans (forall₂_congr fun s h => ?_) (finds_alike_iff hr entity (·.nativeField name))
      have hfound := isSome_find? hr h entity
      show Answer.native (((s.find? entity).map (·.nativeField name)).getD name) =
        .native (((r.find? entity).map (·.nativeField name)).getD name) ↔ _
      cases hs : s.find? entity <;> cases hr' : r.find? entity <;> simp_all
  | resolver entity =>
    refine Iff.trans (forall₂_congr fun s h => ?_) (finds_alike_iff hr entity id)
    simp [answer]

end Finding

end Registry

/-- A registry that visits its tables in another order answers a run of calls alike
    exactly when each call is settled. So it does on every entity's native name, and it
    finds the same table for a name exactly when that is a class name, or the native name
    of one table at most. -/
theorem answers_in_any_order (ms : List EntityMapping) (calls : List Call) :
    let r := Registry.ofList ms
    ((∀ s : Registry, s.Reorders r → ((Observer.fresh s).run calls).1 = ((Observer.fresh r).run calls).1) ↔
      ∀ c ∈ calls, r.Settles c) ∧
    (∀ name, (∀ s : Registry, s.Reorders r → s.find? name = r.find? name) ↔ r.Settles (.resolver name)) ∧
    ∀ (s : Registry) name, s.Reorders r → (Observer.fresh s).entity name = (Observer.fresh r).entity name := by
  intro r
  have hr := Registry.classesDiffer_ofList ms
  have hrun : ∀ s : Registry, ((Observer.fresh s).run calls).1 = calls.map s.answer :=
    fun s => ((Observer.remembers_fresh s).run calls).1
  refine ⟨?_, fun name => ?_, fun s name hs => ?_⟩
  · simp only [hrun, List.map_inj_left]
    constructor
    · intro h c hc
      exact (Registry.answers_alike_iff hr c).mp fun s hs => h s hs c hc
    · intro h s hs c hc
      exact (Registry.answers_alike_iff hr c).mpr (h c hc) s hs
  · rw [← Registry.answers_alike_iff hr]
    exact forall₂_congr fun s _ => ⟨congrArg Answer.table, Answer.table.inj⟩
  · exact Answer.native.inj ((Registry.answers_alike_iff hr (.ask (.entity name))).mpr trivial s hs)

/-- Two classes that are stored as one kind of entity. -/
def staffAndCustomers : List EntityMapping :=
  [⟨"person", "Employee", [⟨"id", "staff_id", .default⟩]⟩, ⟨"person", "Customer", [⟨"id", "customer_id", .default⟩]⟩]

/-- Under their native name, the order decides which of two tables is found, and how it
    maps a field. -/
theorem shared_native_name :
    let r := Registry.ofList staffAndCustomers
    let s : Registry := ⟨staffAndCustomers.reverse⟩
    s.Reorders r ∧ s.find? "person" ≠ r.find? "person" ∧
      ((Observer.fresh r).field "person" "id").1 = "staff_id" ∧
      ((Observer.fresh s).field "person" "id").1 = "customer_id" := by
  intro r s
  exact ⟨List.reverse_perm staffAndCustomers, by decide, by decide, by decide⟩

end EntityQuery.Naming
