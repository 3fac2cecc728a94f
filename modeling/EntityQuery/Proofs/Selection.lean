/-
  EntityQuery.Proofs.Selection — the entities that a select answers.

  They are the matching entities of the collection, as they are stored, stably sorted by
  the keys, cut to the window and then projected (`select_rows`). Sorting sees whole
  entities, and the window counts what is sorted.
-/

import EntityQuery.Proofs.Matching
import EntityQuery.Proofs.Sorting
import EntityQuery.Storage.Store

namespace EntityQuery

namespace Store

/-- The entities of a collection that a condition admits, as they are stored. -/
def matching (s : Store) (entity : String) (c : Option (Condition Value)) : List Entity :=
  (s.entities entity).filter (Condition.admits c)

variable {s : Store} {name : String}

theorem entities_of_none (h : s.collection? name = none) : s.entities name = [] := by
  rw [entities, h]
  rfl

theorem entities_of_some {es : List Entity} (h : s.collection? name = some es) : s.entities name = es := by
  rw [entities, h]
  rfl

theorem matching_of_none (h : s.collection? name = none) (c : Option (Condition Value)) : s.matching name c = [] := by
  rw [matching, entities_of_none h, List.filter_nil]

theorem window_nil (skip limit : Option Nat) : window skip limit [] = [] := by
  unfold window
  cases limit <;> simp

theorem window_map (skip limit : Option Nat) (f : Entity → Entity) (es : List Entity) :
    window skip limit (es.map f) = (window skip limit es).map f := by
  unfold window
  cases limit <;> simp

/-- A select succeeds unless a pattern does not fit, and patterns count only for a
    collection that is there. -/
theorem select_eq_ok {q : SelectQuery Value} {rows : List Entity} : s.select q = .ok rows ↔
    (s.collection? q.entity = none ∨ ∀ p ∈ q.condition.elim [] Condition.likePatterns, Like.Fits p) ∧
    rows = (window q.skip q.limit (SortKey.sort q.sorts (s.matching q.entity q.condition))).map (·.project q.fields) := by
  cases hes : s.collection? q.entity with
  | none =>
    have hempty : (window q.skip q.limit (SortKey.sort q.sorts [])).map (·.project q.fields) = [] :=
      congrArg (List.map (·.project q.fields)) (window_nil q.skip q.limit)
    rw [select, hes, matching_of_none hes, hempty]
    simp [eq_comm]
  | some es =>
    rw [select, hes, matching, entities_of_some hes]
    refine Filter.map_keeping_eq_ok.trans (and_congr_left' ?_)
    exact (or_iff_right (Option.some_ne_none es)).symm

end Store

/-- What a select answers, where the columns that it sorts by can be sorted: the
    matching entities, stably sorted by the keys one after the other, from behind those
    to be skipped up to the limit, each projected at last. -/
theorem select_rows (store after : Store) (q : SelectQuery Value) (rows : List Entity)
    (hsort : Sortable q.sorts (store.matching q.entity q.condition))
    (h : Store.manager.execute (.select q) store = (.ok rows, after)) :
    after = store ∧
    (∃ sorted, StableSorted (SortKey.compareAll q.sorts) (store.matching q.entity q.condition) sorted ∧
      (∀ other, StableSorted (SortKey.compareAll q.sorts) (store.matching q.entity q.condition) other →
        other = sorted) ∧
      rows = ((sorted.drop (q.skip.getD 0)).take (q.limit.getD sorted.length)).map (·.project q.fields)) ∧
    (∀ a b, SortKey.compareAll q.sorts a b = .lt ↔ SortKey.Before q.sorts a b) ∧
    (∀ a b, SortKey.compareAll q.sorts a b = .eq ↔ ∀ s ∈ q.sorts, s.Ties a b) := by
  obtain ⟨hselect, hafter⟩ := Prod.mk.inj h
  have hsorted := SortKey.sort_stableSorted hsort
  refine ⟨hafter.symm, ⟨_, hsorted, fun other ho => ho.unique hsorted, ?_⟩, SortKey.compareAll_eq_lt q.sorts,
    SortKey.compareAll_eq_eq q.sorts⟩
  rw [(Store.select_eq_ok.mp hselect).2]
  congr 1
  unfold Store.window
  cases q.limit with
  | some n => rfl
  | none => exact (List.take_of_length_le (by simp)).symm

def person (name : String) (age : Value) : Entity := ⟨"Person", [("age", age), ("name", .string name), ("tags", .array [])]⟩

/-- Four people, two of them of one age in two kinds of number. -/
def people : List Entity :=
  [person "Cy" (.float (.ofInt 36)), person "Bob" (.integer 20), person "Ada" (.integer 36), person "Di" (.integer 41)]

/-- The second and the third oldest. Lists of tags do not compare. -/
def secondAndThird : SelectQuery Value where
  entity := "Person"
  fields := ["name"]
  condition := some (.compare "age" .greater (.integer 18))
  sorts := [⟨"age", .desc⟩, ⟨"tags", .asc⟩]
  skip := some 1
  limit := some 2

theorem select_rows_people :
    let store : Store := people.foldl .add .empty
    let q := secondAndThird
    Sortable q.sorts (store.matching q.entity q.condition) ∧ store.matching q.entity q.condition = people ∧
    ∃ sorted, StableSorted (SortKey.compareAll q.sorts) people sorted ∧
      [⟨"Person", [("name", .string "Cy")]⟩, ⟨"Person", [("name", .string "Ada")]⟩] =
        ((sorted.drop 1).take 2).map (·.project ["name"]) := by
  intro store q
  have hmatching : store.matching q.entity q.condition = people := rfl
  have hsort : Sortable q.sorts (store.matching q.entity q.condition) := by
    refine List.forall_mem_cons.mpr ⟨.inl ?_, List.forall_mem_singleton.mpr (.inr ?_)⟩
    · show TotallyOrdered [.float (.ofInt 36), .integer 20, .integer 36, .integer 41]
      exact ⟨by decide +kernel, by decide +kernel⟩
    · show [Value.array [], .array [], .array [], .array []].Pairwise fun a b => a.compare? b = none
      decide +kernel
  obtain ⟨-, ⟨sorted, hsorted, -, hrows⟩, -⟩ := select_rows store store q _ hsort rfl
  exact ⟨hsort, hmatching, sorted, hsorted, hrows⟩

end EntityQuery
