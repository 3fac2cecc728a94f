/-
  EntityQuery.Proofs.Updates — what an update leaves in the store.

  (1) Assignments. They are made in order, and an assignment is without effect if a
  later one writes the same field or one that it lies in (`Store.assign_superseded`);
  the last one of a field is what the field reads (`Store.get?_assign_last`).

  (2) The pass. An update gives each entity its turn: the entity is tested as it stands,
  and changed and answered if it matches (`Store.turn`). No turn sees what another did,
  so the pass changes the matching entities in place and answers them in the order in
  which they are stored (`Store.foldl_turn`).

  (3) Stores. An update succeeds unless a pattern does not fit, and then the pass over
  its collection is all it does (`Store.update_eq_ok`, `update_rows`).
-/

import EntityQuery.Proofs.Invariants
import EntityQuery.Proofs.Paths
import EntityQuery.Proofs.Selection

namespace EntityQuery

open Entity (segments)

/-! ## (1) Assignments -/

/-- Entities that are the same once a path is written are so after any other write too. -/
theorem Entity.set_eq_of_set_eq {e e' : Entity} {path : String} (h : ∀ w, e.set path w = e'.set path w)
    (other : String) (v w : Value) : (e.set other v).set path w = (e'.set other v).set path w := by
  -- The other path leads behind this one, is on the way to it, or has nothing to do with it.
  by_cases hbehind : segments path <+: segments other
  · rw [set_forgets e v w hbehind, set_forgets e' v w hbehind, h]
  · by_cases hahead : segments other <+: segments path
    · have hsame : e.set other v = e'.set other v := by
        rw [← set_forgets e w v hahead, ← set_forgets e' w v hahead, h]
      rw [hsame]
    · have hapart : Incomparable other path := ⟨hahead, hbehind⟩
      rw [set_comm e v w hapart, set_comm e' v w hapart, h]

namespace Store

theorem assign_append (items later : List (Assignment Value)) (e : Entity) :
    assign (items ++ later) e = assign later (assign items e) := List.foldl_append

theorem assign_cons (a : Assignment Value) (items : List (Assignment Value)) (e : Entity) :
    assign (a :: items) e = assign items (e.set a.field a.value) := rfl

theorem assign_set_eq {e e' : Entity} {path : String} (h : ∀ w, e.set path w = e'.set path w)
    (items : List (Assignment Value)) (w : Value) : (assign items e).set path w = (assign items e').set path w := by
  induction items generalizing e e' with
  | nil => exact h w
  | cons a items ih => exact ih (Entity.set_eq_of_set_eq h a.field a.value)

/-- An assignment may be left out if a later one writes its field or one that it lies in. -/
theorem assign_superseded {a b : Assignment Value} (h : segments b.field <+: segments a.field)
    (ahead mid behind : List (Assignment Value)) (e : Entity) :
    assign (ahead ++ a :: (mid ++ b :: behind)) e = assign (ahead ++ (mid ++ b :: behind)) e := by
  have hforgotten : ∀ w, ((assign ahead e).set a.field a.value).set b.field w = (assign ahead e).set b.field w :=
    fun w => (assign ahead e).set_forgets a.value w h
  rw [assign_append, assign_append, assign_cons, assign_append, assign_append, assign_cons, assign_cons,
    assign_set_eq hforgotten mid b.value]

theorem get?_assign_last {a : Assignment Value} {behind : List (Assignment Value)}
    (h : ∀ b ∈ behind, Entity.Incomparable b.field a.field) (ahead : List (Assignment Value)) (e : Entity) :
    (assign (ahead ++ a :: behind) e).get? a.field = some a.value := by
  rw [assign_append, assign_cons, get?_assign_of_incomparable behind _ h, Entity.get?_set_self]

/-! ## (2) The pass -/

/-- One entity's turn, after those that are kept and answered already. -/
def turn (keep : Entity → Bool) (items : List (Assignment Value)) :
    List Entity × List Entity → Entity → List Entity × List Entity
  | (kept, answered), e =>
    if keep e then (kept ++ [assign items e], answered ++ [assign items e]) else (kept ++ [e], answered)

theorem foldl_turn (keep : Entity → Bool) (items : List (Assignment Value)) (es kept answered : List Entity) :
    es.foldl (turn keep items) (kept, answered) =
      (kept ++ es.map fun e => if keep e then assign items e else e,
        answered ++ (es.filter keep).map (assign items)) := by
  induction es generalizing kept answered with
  | nil => simp
  | cons e es ih =>
    rw [List.foldl_cons]
    by_cases he : keep e = true
    · rw [turn, if_pos he, ih]
      simp [he]
    · rw [turn, if_neg he, ih]
      simp [he]

/-! ## (3) Stores -/

/-- The entities of an update's collection in their new form. -/
def revised (s : Store) (q : UpdateQuery Value) : List Entity :=
  (s.entities q.entity).map fun e => if Condition.admits q.condition e then assign q.set e else e

theorem setCollection_of_lookup_none {name : String} {collections : List (String × List Entity)}
    (h : collections.lookup name = none) (es : List Entity) : setCollection name es collections = collections := by
  induction collections with
  | nil => rfl
  | cons c collections ih =>
    obtain ⟨n, old⟩ := c
    rw [lookup_collection_cons] at h
    by_cases hn : name = n
    · rw [if_pos hn] at h
      cases h
    · rw [if_neg hn] at h
      rw [setCollection, if_neg fun he => hn (beq_iff_eq.mp he).symm, ih h]

/-- An update succeeds unless a pattern does not fit, and patterns count only for a
    collection that is there. -/
theorem update_eq_ok {s after : Store} {q : UpdateQuery Value} {rows : List Entity} : s.update q = .ok (rows, after) ↔
    (s.collection? q.entity = none ∨ ∀ p ∈ q.condition.elim [] Condition.likePatterns, Like.Fits p) ∧
    rows = (s.matching q.entity q.condition).map (assign q.set) ∧
    after = { s with collections := setCollection q.entity (s.revised q) s.collections } := by
  cases hes : s.collection? q.entity with
  | none =>
    rw [update, hes, matching_of_none hes, setCollection_of_lookup_none hes]
    constructor
    · intro h
      obtain ⟨hrows, hafter⟩ := Prod.mk.inj (Except.ok.inj h)
      exact ⟨.inl rfl, hrows.symm, hafter.symm⟩
    · rintro ⟨-, rfl, rfl⟩
      rfl
  | some es =>
    rw [update, hes, revised, matching, entities_of_some hes]
    refine Filter.map_keeping_eq_ok.trans (and_congr ?_ Prod.mk_inj)
    exact (or_iff_right (Option.some_ne_none es)).symm

/-- An update that answers is one that succeeded. -/
theorem execute_update_eq_ok {s after : Store} {q : UpdateQuery Value} {rows : List Entity} :
    manager.execute (.update q) s = (.ok rows, after) ↔ s.update q = .ok (rows, after) := by
  simp only [Manager.execute, manager]
  cases hu : s.update q with
  | error e => simp
  | ok r => simp [Prod.ext_iff]

theorem collection?_revised (s : Store) (q : UpdateQuery Value) (name : String) :
    collection? { s with collections := setCollection q.entity (s.revised q) s.collections } name =
      if name = q.entity then (s.collection? name).map fun _ => s.revised q else s.collection? name :=
  lookup_setCollection q.entity name (s.revised q) s.collections

theorem entities_revised (s : Store) (q : UpdateQuery Value) :
    entities { s with collections := setCollection q.entity (s.revised q) s.collections } q.entity = s.revised q := by
  rw [entities, collection?_revised, if_pos rfl]
  cases hes : s.collection? q.entity with
  | none => rw [revised, entities_of_none hes]; rfl
  | some es => rfl

end Store

/-- What an update leaves and answers. Its collection keeps length and order: an entity
    that did not match is its old self, one that did has the fields set one after the
    other, and these are answered in stored order, which is what a pass from entity to
    entity comes to. All else in the store is as before, and a collection that is not
    there does not come to be. Of the assignments a later one of a field wins. -/
theorem update_rows (store after : Store) (q : UpdateQuery Value) (rows : List Entity)
    (h : Store.manager.execute (.update q) store = (.ok rows, after)) :
    let changed : Entity → Entity := fun e => q.set.foldl (fun e a => e.set a.field a.value) e
    let before := store.entities q.entity
    let now := after.entities q.entity
    now.length = before.length ∧
    (∀ (i : Nat) e, before[i]? = some e → now[i]? = some (if Condition.admits q.condition e then changed e else e)) ∧
    rows = (before.filter (Condition.admits q.condition)).map changed ∧
    (now, rows) = before.foldl (Store.turn (Condition.admits q.condition) q.set) ([], []) ∧
    (∀ name, name ≠ q.entity → after.collection? name = store.collection? name) ∧
    after.names = store.names ∧ after.bucket = store.bucket ∧
    (store.collection? q.entity = none → rows = [] ∧ after = store) ∧
    (∀ ahead a mid b behind, q.set = ahead ++ a :: (mid ++ b :: behind) → segments b.field <+: segments a.field →
      ∀ e, changed e = Store.assign (ahead ++ (mid ++ b :: behind)) e) ∧
    (∀ ahead a behind, q.set = ahead ++ a :: behind → (∀ b ∈ behind, Entity.Incomparable b.field a.field) →
      ∀ e, (changed e).get? a.field = some a.value) := by
  intro changed before now
  obtain ⟨-, rfl, rfl⟩ := Store.update_eq_ok.mp (Store.execute_update_eq_ok.mp h)
  have hnow : now = store.revised q := Store.entities_revised store q
  have hpass := Store.foldl_turn (Condition.admits q.condition) q.set before [] []
  rw [hnow]
  refine ⟨List.length_map _, fun i e he => ?_, rfl, hpass.symm, fun name hname => ?_,
    Store.names_setCollection q.entity _ _, rfl, fun hnone => ?_, ?_, ?_⟩
  · rw [Store.revised, List.getElem?_map, he]
    rfl
  · rw [Store.collection?_revised, if_neg hname]
  · exact ⟨by rw [Store.matching_of_none hnone, List.map_nil], by rw [Store.setCollection_of_lookup_none hnone]⟩
  · intro ahead a mid b behind hset hprefix e
    show Store.assign q.set e = _
    rw [hset, Store.assign_superseded hprefix]
  · intro ahead a behind hset hbehind e
    show (Store.assign q.set e).get? a.field = _
    rw [hset, Store.get?_assign_last hbehind]

/-- The condition reads the field that is set, and it is set twice. -/
def birthday : UpdateQuery Value where
  entity := "Person"
  set := [⟨"age", .integer 0⟩, ⟨"age", .integer 37⟩]
  condition := some (.compare "age" .equals (.integer 36))

def town : Entity := ⟨"Town", []⟩

theorem update_rows_birthday :
    let store : Store := (people ++ [town]).foldl .add .empty
    let rows := [person "Cy" (.integer 37), person "Ada" (.integer 37)]
    ∃ after, Store.manager.execute (.update birthday) store = (.ok rows, after) ∧
      (after.entities "Person").length = 4 ∧ (after.entities "Person")[1]? = some (person "Bob" (.integer 20)) ∧
      rows = ([person "Cy" (.float (.ofInt 36)), person "Ada" (.integer 36)]).map (Store.assign birthday.set) ∧
      after.collection? "Town" = store.collection? "Town" ∧ after.names = ["Person", "Town"] ∧
      ∀ e, (Store.assign birthday.set e).get? "age" = some (.integer 37) := by
  intro store rows
  have hrun : Store.manager.execute (.update birthday) store =
      (.ok rows, (Store.manager.execute (.update birthday) store).2) := rfl
  obtain ⟨hlength, hkept, hrows, -, hothers, hnames, -, -, -, hlast⟩ := update_rows store _ birthday rows hrun
  refine ⟨_, hrun, hlength, hkept 1 _ rfl, hrows, hothers "Town" (by decide), hnames, ?_⟩
  exact hlast [⟨"age", .integer 0⟩] ⟨"age", .integer 37⟩ [] rfl nofun

end EntityQuery
