/-
  EntityQuery.Proofs.Projection — what a projection keeps of an entity.

  (1) Reading along a path is reading up to some point of it, and from there on in the
  value found (`Fields.get?_append`).

  (2) One copy. Copying what stands behind a path that was copied changes nothing, and
  copying a path replaces all that was copied behind it, by the same; so copies may
  be made in any order, and each once or often (`copyPath_behind`, `copyPath_forgets`,
  `copyPath_comm`).

  (3) All copies. An entity that has nothing the source lacks stays so (`Within`), and
  where it once reads as the source does it goes on doing so, whatever is copied
  afterwards (`get?_copyPath_of_eq`). So a projection reads as its entity does at its
  paths and behind them, and finds nothing away from them (`project_exact`).
-/

import Mathlib.Data.List.Basic
import EntityQuery.Proofs.Paths

namespace EntityQuery

/-! ## (1) Reading in two steps -/

theorem Value.descend?_append (v : Value) (names rest : List String) :
    v.descend? (names ++ rest) = (v.descend? names).bind (descend? · rest) := by
  induction names generalizing v with
  | nil => rfl
  | cons name names ih =>
    cases v with
    | object fields =>
      show (Fields.lookup? fields name).bind (descend? · (names ++ rest)) =
        ((Fields.lookup? fields name).bind (descend? · names)).bind (descend? · rest)
      rw [Option.bind_assoc]
      exact congrArg (Option.bind _) (funext ih)
    | _ => rfl

theorem Fields.get?_append (fields : Fields) {path : List String} (h : path ≠ []) (rest : List String) :
    fields.get? (path ++ rest) = (fields.get? path).bind (Value.descend? · rest) := by
  obtain ⟨name, names, rfl⟩ := List.exists_cons_of_ne_nil h
  rw [List.cons_append, get?_cons, get?_cons, Option.bind_assoc]
  exact congrArg (Option.bind _) (funext fun v => v.descend?_append names rest)

namespace Entity

variable {source target : Entity} {p q : String}

theorem get?_behind (e : Entity) {rest : List String} (h : segments q = segments p ++ rest) :
    e.get? q = (e.get? p).bind (Value.descend? · rest) := by
  rw [get?, h]
  exact e.fields.get?_append (segments_ne_nil p) rest

/-- Nothing stands behind a place where nothing is. -/
theorem get?_eq_none_behind {e : Entity} (h : segments p <+: segments q) (hp : e.get? p = none) : e.get? q = none := by
  obtain ⟨rest, hrest⟩ := h
  rw [e.get?_behind hrest.symm, hp, Option.bind_none]

/-! ## (2) One copy -/

theorem copyPath_of_none (target : Entity) (h : source.get? p = none) : copyPath source target p = target := by
  rw [copyPath, h]

theorem copyPath_of_some (target : Entity) {v : Value} (h : source.get? p = some v) :
    copyPath source target p = target.set p v := by
  rw [copyPath, h]

theorem set_of_get? {e : Entity} {v : Value} (h : e.get? p = some v) : e.set p v = e :=
  congrArg (Entity.mk e.name) (Fields.set_get? h)

/-- What is copied with a path need not be copied again. -/
theorem copyPath_behind (target : Entity) (h : segments p <+: segments q) :
    copyPath source (copyPath source target p) q = copyPath source target p := by
  cases hq : source.get? q with
  | none => exact copyPath_of_none _ hq
  | some w =>
    cases hp : source.get? p with
    | none => rw [get?_eq_none_behind h hp] at hq; cases hq
    | some v =>
      obtain ⟨rest, hrest⟩ := h
      have hthere : (target.set p v).get? q = some w := by
        rw [← hq, source.get?_behind hrest.symm, hp, (target.set p v).get?_behind hrest.symm, get?_set_self]
      rw [copyPath_of_some _ hp, copyPath_of_some _ hq, set_of_get? hthere]

/-- Copying a path replaces what was copied behind it. -/
theorem copyPath_forgets (target : Entity) (h : segments p <+: segments q) :
    copyPath source (copyPath source target q) p = copyPath source target p := by
  cases hp : source.get? p with
  | none => rw [copyPath_of_none target (get?_eq_none_behind h hp)]
  | some v =>
    rw [copyPath_of_some _ hp, copyPath_of_some _ hp]
    cases hq : source.get? q with
    | none => rw [copyPath_of_none _ hq]
    | some w => rw [copyPath_of_some _ hq, set_forgets target w v h]

theorem copyPath_comm (source target : Entity) (p q : String) :
    copyPath source (copyPath source target p) q = copyPath source (copyPath source target q) p := by
  by_cases hpq : segments p <+: segments q
  · rw [copyPath_behind target hpq, copyPath_forgets target hpq]
  · by_cases hqp : segments q <+: segments p
    · rw [copyPath_behind target hqp, copyPath_forgets target hqp]
    · cases hp : source.get? p with
      | none => rw [copyPath_of_none _ hp, copyPath_of_none _ hp]
      | some v =>
        cases hq : source.get? q with
        | none => rw [copyPath_of_none _ hq, copyPath_of_none _ hq]
        | some w =>
          rw [copyPath_of_some _ hp, copyPath_of_some _ hp, copyPath_of_some _ hq, copyPath_of_some _ hq]
          exact target.set_comm v w ⟨hpq, hqp⟩

theorem get?_copyPath_of_incomparable (target : Entity) (h : (source.get? p).isSome → Incomparable p q) :
    (copyPath source target p).get? q = target.get? q := by
  cases hp : source.get? p with
  | none => rw [copyPath_of_none _ hp]
  | some v =>
    rw [copyPath_of_some _ hp]
    exact target.get?_set_of_incomparable v (h (Option.isSome_of_eq_some hp))

/-- Where an entity reads as the source does, a copy leaves it so: it writes elsewhere,
    or behind that place what is there already, or there what is to be there. -/
theorem get?_copyPath_of_eq (p : String) (h : target.get? q = source.get? q) :
    (copyPath source target p).get? q = source.get? q := by
  cases hp : source.get? p with
  | none => rw [copyPath_of_none _ hp, h]
  | some v =>
    rw [copyPath_of_some _ hp]
    by_cases hpq : segments p <+: segments q
    · obtain ⟨rest, hrest⟩ := hpq
      rw [(target.set p v).get?_behind hrest.symm, source.get?_behind hrest.symm, get?_set_self, hp]
    · by_cases hqp : segments q <+: segments p
      · obtain ⟨rest, hrest⟩ := hqp
        have hthere : target.get? p = some v := by
          rw [← hp, target.get?_behind hrest.symm, source.get?_behind hrest.symm, h]
        rw [set_of_get? hthere, h]
      · rw [target.get?_set_of_incomparable v ⟨hpq, hqp⟩, h]

/-! ## (3) All copies -/

/-- The first entity has nothing at places where the second has nothing. -/
def Within (target source : Entity) : Prop := ∀ path, source.get? path = none → target.get? path = none

theorem Within.copyPath (h : Within target source) (p : String) : Within (copyPath source target p) source :=
  fun path hpath => (get?_copyPath_of_eq p ((h path hpath).trans hpath.symm)).trans hpath

/-- A path is there after it was copied, and so is all behind it. -/
theorem Within.get?_copyPath (h : Within target source) (hpq : segments p <+: segments q) :
    (Entity.copyPath source target p).get? q = source.get? q := by
  cases hp : source.get? p with
  | none =>
    have hq := get?_eq_none_behind hpq hp
    rw [copyPath_of_none _ hp, h q hq, hq]
  | some v =>
    obtain ⟨rest, hrest⟩ := hpq
    rw [copyPath_of_some _ hp, (target.set p v).get?_behind hrest.symm, source.get?_behind hrest.symm, get?_set_self, hp]

theorem get?_copies_of_eq (paths : List String) (h : target.get? q = source.get? q) :
    (paths.foldl (copyPath source) target).get? q = source.get? q := by
  induction paths generalizing target with
  | nil => exact h
  | cons p paths ih => exact ih (get?_copyPath_of_eq p h)

theorem Within.get?_copies {paths : List String} (h : Within target source) (hp : p ∈ paths)
    (hpq : segments p <+: segments q) : (paths.foldl (Entity.copyPath source) target).get? q = source.get? q := by
  induction paths generalizing target with
  | nil => cases hp
  | cons first paths ih =>
    rcases List.mem_cons.mp hp with rfl | hp
    · exact get?_copies_of_eq paths (h.get?_copyPath hpq)
    · exact ih (h.copyPath first) hp

theorem get?_copies_of_incomparable (target : Entity) {paths : List String}
    (h : ∀ p ∈ paths, (source.get? p).isSome → Incomparable p q) :
    (paths.foldl (copyPath source) target).get? q = target.get? q := by
  induction paths generalizing target with
  | nil => rfl
  | cons p paths ih =>
    obtain ⟨hp, hpaths⟩ := List.forall_mem_cons.mp h
    exact (ih (copyPath source target p) hpaths).trans (get?_copyPath_of_incomparable target hp)

theorem name_copies (source target : Entity) (paths : List String) :
    (paths.foldl (copyPath source) target).name = target.name := by
  induction paths generalizing target with
  | nil => rfl
  | cons p paths ih =>
    refine (ih (copyPath source target p)).trans ?_
    unfold copyPath
    split <;> rfl

theorem foldl_copyPath (source target : Entity) (paths : List String) (p : String) :
    copyPath source (paths.foldl (copyPath source) target) p = paths.foldl (copyPath source) (copyPath source target p) := by
  induction paths generalizing target with
  | nil => rfl
  | cons first paths ih => rw [List.foldl_cons, List.foldl_cons, ih, copyPath_comm]

/-- A path that is copied anyway need not be copied first. -/
theorem foldl_copyPath_of_mem (source target : Entity) {paths : List String} (h : p ∈ paths) :
    paths.foldl (copyPath source) (copyPath source target p) = paths.foldl (copyPath source) target := by
  induction paths generalizing target with
  | nil => cases h
  | cons first paths ih =>
    rw [List.foldl_cons, List.foldl_cons]
    rcases List.mem_cons.mp h with rfl | h
    · rw [copyPath_behind target (List.prefix_refl _)]
    · rw [copyPath_comm, ih (copyPath source target first) h]

theorem copies_of_subset (source target : Entity) {paths more : List String} (h : more ⊆ paths) :
    more.foldl (copyPath source) (paths.foldl (copyPath source) target) = paths.foldl (copyPath source) target := by
  induction more with
  | nil => rfl
  | cons p more ih =>
    obtain ⟨hp, hmore⟩ := List.cons_subset.mp h
    rw [List.foldl_cons, foldl_copyPath, foldl_copyPath_of_mem source target hp, ih hmore]

/-- Only which paths are copied counts, neither their order nor how often. -/
theorem copies_congr (source target : Entity) {paths paths' : List String} (h : ∀ p, p ∈ paths' ↔ p ∈ paths) :
    paths'.foldl (copyPath source) target = paths.foldl (copyPath source) target := by
  have hswap : (paths ++ paths').foldl (copyPath source) target = (paths' ++ paths).foldl (copyPath source) target :=
    List.perm_append_comm.foldl_eq' (fun p _ q _ e => copyPath_comm source e p q) target
  rw [List.foldl_append, List.foldl_append, copies_of_subset source target fun p hp => (h p).mp hp,
    copies_of_subset source target fun p hp => (h p).mpr hp] at hswap
  exact hswap.symm

theorem project_of_ne_nil (e : Entity) {paths : List String} (h : paths ≠ []) :
    e.project paths = paths.foldl (copyPath e) ⟨e.name, []⟩ :=
  if_neg fun hempty => h (List.isEmpty_iff.mp hempty)

theorem get?_empty (name path : String) : get? ⟨name, []⟩ path = none := by
  obtain ⟨first, names, hpath⟩ := List.exists_cons_of_ne_nil (segments_ne_nil path)
  rw [get?, hpath]
  rfl

theorem get?_project {e : Entity} {paths : List String} (hp : p ∈ paths) (h : segments p <+: segments q) :
    (e.project paths).get? q = e.get? q := by
  rw [e.project_of_ne_nil (List.ne_nil_of_mem hp)]
  exact Within.get?_copies (fun path _ => get?_empty e.name path) hp h

/-- A projection to some paths reads as the entity at those paths and behind them, also
    where nothing is, and finds nothing away from those that the entity has. It depends
    on which paths they are alone, keeps the name, and is its own projection. -/
theorem project_exact (e : Entity) {paths : List String} (h : paths ≠ []) :
    (∀ q, (∃ p ∈ paths, segments p <+: segments q) → (e.project paths).get? q = e.get? q) ∧
    (∀ q, (∀ p ∈ paths, (e.get? p).isSome → Incomparable p q) → (e.project paths).get? q = none) ∧
    (∀ paths', (∀ p, p ∈ paths' ↔ p ∈ paths) → e.project paths' = e.project paths) ∧
    (e.project paths).name = e.name ∧
    (e.project paths).project paths = e.project paths := by
  have hread : ∀ q, (∃ p ∈ paths, segments p <+: segments q) → (e.project paths).get? q = e.get? q :=
    fun q ⟨_, hp, hpq⟩ => get?_project hp hpq
  have hname : (e.project paths).name = e.name := by
    rw [e.project_of_ne_nil h]
    exact name_copies e ⟨e.name, []⟩ paths
  refine ⟨hread, fun q hq => ?_, fun paths' hsame => ?_, hname, ?_⟩
  · rw [e.project_of_ne_nil h, get?_copies_of_incomparable _ hq]
    exact get?_empty e.name q
  · have h' : paths' ≠ [] := by
      obtain ⟨p, hp⟩ := List.exists_mem_of_ne_nil paths h
      exact List.ne_nil_of_mem ((hsame p).mpr hp)
    rw [e.project_of_ne_nil h, e.project_of_ne_nil h', copies_congr e _ hsame]
  · rw [(e.project paths).project_of_ne_nil h, hname, e.project_of_ne_nil h]
    refine List.foldl_ext _ _ _ fun target p hp => ?_
    rw [← e.project_of_ne_nil h, copyPath, copyPath, hread p ⟨p, hp, List.prefix_refl _⟩]

/-- Paths that repeat, lie inside each other, miss, or lead through a text. -/
theorem project_exact_address :
    let e : Entity := ⟨"Person", [("address", .object [("city", .string "London"), ("zip", .integer 1)]),
      ("name", .string "Ada")]⟩
    let paths := ["address.city", "address", "name.first", "age", "address.city"]
    paths ≠ [] ∧
    (∃ p ∈ paths, segments p <+: segments "address.zip") ∧
    (e.project paths).get? "address.zip" = some (.integer 1) ∧
    (∀ p ∈ paths, (e.get? p).isSome → Incomparable p "name") ∧
    (e.project paths).get? "name" = none ∧
    (∀ p, p ∈ ["age", "address", "name.first", "address.city"] ↔ p ∈ paths) ∧
    e.project ["age", "address", "name.first", "address.city"] = e.project paths ∧
    (e.project paths).project paths = e.project paths := by
  intro e paths
  have hpaths : paths ≠ [] := List.cons_ne_nil _ _
  have hzip : ∃ p ∈ paths, segments p <+: segments "address.zip" := by decide
  have haway : ∀ p ∈ paths, (e.get? p).isSome → Incomparable p "name" := by decide
  have hsame : ∀ p, p ∈ ["age", "address", "name.first", "address.city"] ↔ p ∈ paths := by
    intro p
    simp only [paths, List.mem_cons, List.not_mem_nil, or_false]
    tauto
  obtain ⟨hread, hnone, hmembers, -, hagain⟩ := project_exact e hpaths
  exact ⟨hpaths, hzip, hread _ hzip, haway, hnone _ haway, hsame, hmembers _ hsame, hagain⟩

end Entity

end EntityQuery
