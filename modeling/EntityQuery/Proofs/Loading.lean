/-
  EntityQuery.Proofs.Loading — what a data document must be, and what is loaded of it.

  (1) Documents. A text is loaded exactly when it is an object whose two sections, where
  they are there, are an object of objects and an object of lists of objects
  (`Json.IsDocument`, `loadData_eq_ok`). Loading does one put or add after the other, in
  the order of the document.

  (2) The store. Names differ in what is read, so no entry of the bucket replaces
  another one, and the entities of a collection are those of its own list.
-/

import EntityQuery.Command.Data
import EntityQuery.Proofs.Bucket
import EntityQuery.Proofs.Json.Reading

namespace EntityQuery

/-! ## (1) Documents -/

namespace Json

def IsObject (v : Json) : Prop := ∃ fields, v = .object fields

def IsObjectList (v : Json) : Prop := ∃ items, v = .array items ∧ ∀ w ∈ items, w.IsObject

/-- An object whose fields all have the property. -/
def IsObjectOf (p : Json → Prop) (v : Json) : Prop := ∃ fields, v = .object fields ∧ ∀ f ∈ fields, p f.2

/-- The fields of a data document. -/
structure IsDocument (fields : List (String × Json)) : Prop where
  bucket : ∀ v, field? fields "bucket" = some v → v.IsObjectOf IsObject
  collections : ∀ v, field? fields "collections" = some v → v.IsObjectOf IsObjectList

/-- The fields under a name, none if there is no object. -/
def fieldsUnder (fields : List (String × Json)) (name : String) : List (String × Json) :=
  match field? fields name with
  | some (.object entries) => entries
  | _ => []

def items : Json → List Json
  | .array items => items
  | _ => []

theorem field?_eq_some {fields : List (String × Json)} {name : String} {v : Json} (h : field? fields name = some v) :
    (name, v) ∈ fields := by
  obtain ⟨f, hf, rfl⟩ := Option.map_eq_some_iff.mp h
  have hname : f.1 = name := beq_iff_eq.mp (List.find?_some hf :)
  exact hname ▸ List.mem_of_find?_eq_some hf

/-- A section of what is read has what is read, and names that differ. -/
theorem Regular.fieldsUnder {fields : List (String × Json)} (h : (Json.object fields).Regular) (name : String) :
    (Json.object (fieldsUnder fields name)).Regular := by
  unfold Json.fieldsUnder
  split
  · next entries hentries => exact h.of_mem_object (field?_eq_some hentries)
  · exact .object .nil nofun

end Json

namespace Command

/-- The entity that an object is. -/
def entityAt (name : String) (v : Json) : Entity := ⟨name, (Value.ofJson v).fieldsOrEmpty⟩

theorem entityOf_eq_ok {name : String} {v : Json} {e : Entity} :
    entityOf name v = .ok e ↔ v.IsObject ∧ e = entityAt name v := by
  constructor
  · intro h
    cases v with
    | object fields => exact ⟨⟨fields, rfl⟩, (Except.ok.inj h).symm⟩
    | whole n =>
      rw [entityOf, Value.ofJson, Value.ofWhole] at h
      cases hn : Numeral.int64? n <;> rw [hn] at h <;> cases h
    | _ => cases h
  · rintro ⟨⟨fields, rfl⟩, rfl⟩
    rfl

/-- Loading binds by name, not by an operator. -/
theorem bind_eq_ok {ε α β : Type} {x : Except ε α} {f : α → Except ε β} {b : β} :
    x.bind f = .ok b ↔ ∃ a, x = .ok a ∧ f a = .ok b := except_bind_eq_ok

theorem forall_mem_cons_and {α : Type} {p : α → Prop} {a : α} {l : List α} {q : Prop} :
    (∀ x ∈ a :: l, p x) ∧ q ↔ p a ∧ (∀ x ∈ l, p x) ∧ q := by rw [List.forall_mem_cons, and_assoc]

theorem loadBucket_eq_ok {s t : Store} {entries : List (String × Json)} :
    loadBucket s entries = .ok t ↔ (∀ f ∈ entries, f.2.IsObject) ∧
      t = entries.foldl (fun s f => s.put (.string f.1) (entityAt f.1 f.2)) s := by
  induction entries generalizing s with
  | nil => simp [loadBucket, eq_comm]
  | cons f entries ih =>
    rw [loadBucket, bind_eq_ok, forall_mem_cons_and, List.foldl_cons]
    simp only [entityOf_eq_ok, ih, and_assoc]
    simp

theorem loadEntities_eq_ok {s t : Store} {name : String} {items : List Json} :
    loadEntities s name items = .ok t ↔ (∀ v ∈ items, v.IsObject) ∧
      t = (items.map (entityAt name)).foldl Store.add s := by
  induction items generalizing s with
  | nil => simp [loadEntities, eq_comm]
  | cons v items ih =>
    rw [loadEntities, bind_eq_ok, forall_mem_cons_and, List.map_cons, List.foldl_cons]
    simp only [entityOf_eq_ok, ih, and_assoc]
    simp

/-- The entities of all collections, one list after the other. -/
def listed (collections : List (String × Json)) : List Entity :=
  collections.flatMap fun f => f.2.items.map (entityAt f.1)

theorem loadCollections_eq_ok {s t : Store} {collections : List (String × Json)} :
    loadCollections s collections = .ok t ↔ (∀ f ∈ collections, f.2.IsObjectList) ∧
      t = (listed collections).foldl Store.add s := by
  induction collections generalizing s with
  | nil => simp [loadCollections, listed, eq_comm]
  | cons f collections ih =>
    obtain ⟨name, v⟩ := f
    rw [forall_mem_cons_and]
    cases v with
    | array items =>
      have hlist : (Json.array items).IsObjectList ↔ ∀ v ∈ items, v.IsObject := by simp [Json.IsObjectList]
      rw [loadCollections, bind_eq_ok, hlist, listed, List.flatMap_cons, List.foldl_append]
      simp only [loadEntities_eq_ok, ih, and_assoc]
      simp [Json.items, listed]
    | _ => simp [loadCollections, Json.IsObjectList]

/-- The store that the fields of a document make. -/
def loaded (fields : List (String × Json)) : Store :=
  (listed (Json.fieldsUnder fields "collections")).foldl Store.add
    ((Json.fieldsUnder fields "bucket").foldl (fun s f => s.put (.string f.1) (entityAt f.1 f.2)) .empty)

theorem sectionFields_eq_ok {fault : DataFault} {fields entries : List (String × Json)} {name : String} :
    sectionFields fault (Json.field? fields name) = .ok entries ↔
      (∀ v, Json.field? fields name = some v → v.IsObject) ∧ entries = Json.fieldsUnder fields name := by
  unfold sectionFields Json.fieldsUnder
  cases Json.field? fields name with
  | none => simp [eq_comm]
  | some v => cases v <;> simp [Json.IsObject, eq_comm]

/-- A section is an object, and its fields have the property. -/
theorem isObjectOf_fieldsUnder {fields : List (String × Json)} {name : String} {p : Json → Prop} :
    (∀ v, Json.field? fields name = some v → v.IsObjectOf p) ↔
      (∀ v, Json.field? fields name = some v → v.IsObject) ∧ ∀ f ∈ Json.fieldsUnder fields name, p f.2 := by
  unfold Json.fieldsUnder
  cases Json.field? fields name with
  | none => simp
  | some v => cases v <;> simp [Json.IsObjectOf, Json.IsObject]

theorem isDocument_iff {fields : List (String × Json)} : Json.IsDocument fields ↔
    ((∀ v, Json.field? fields "bucket" = some v → v.IsObject) ∧ ∀ f ∈ Json.fieldsUnder fields "bucket", f.2.IsObject) ∧
    ((∀ v, Json.field? fields "collections" = some v → v.IsObject) ∧
      ∀ f ∈ Json.fieldsUnder fields "collections", f.2.IsObjectList) := by
  rw [← isObjectOf_fieldsUnder, ← isObjectOf_fieldsUnder]
  exact ⟨fun h => ⟨h.bucket, h.collections⟩, fun h => ⟨h.1, h.2⟩⟩

theorem storeOfJson_eq_ok {v : Json} {s : Store} :
    storeOfJson v = .ok s ↔ ∃ fields, v = .object fields ∧ Json.IsDocument fields ∧ s = loaded fields := by
  cases v with
  | object fields =>
    simp only [storeOfJson, bind_eq_ok, sectionFields_eq_ok, loadBucket_eq_ok, loadCollections_eq_ok, Json.object.injEq]
    constructor
    · rintro ⟨_, ⟨hb, rfl⟩, _, ⟨hentries, rfl⟩, _, ⟨hc, rfl⟩, hlists, rfl⟩
      exact ⟨fields, rfl, isDocument_iff.mpr ⟨⟨hb, hentries⟩, hc, hlists⟩, rfl⟩
    · rintro ⟨_, rfl, hdocument, rfl⟩
      obtain ⟨⟨hb, hentries⟩, hc, hlists⟩ := isDocument_iff.mp hdocument
      exact ⟨_, ⟨hb, rfl⟩, _, ⟨hentries, rfl⟩, _, ⟨hc, rfl⟩, hlists, rfl⟩
  | _ => simp [storeOfJson]

/-- A text is loaded exactly when it spells a data document. -/
theorem loadData_eq_ok {text : String} {s : Store} : loadData text = .ok s ↔
    ∃ fields, Json.parseText text = .ok (.object fields) ∧ Json.IsDocument fields ∧ s = loaded fields := by
  unfold loadData
  cases Json.parseText text with
  | error reason => simp
  | ok v =>
    have hmap : (storeOfJson v).mapError CommandError.invalidData = .ok s ↔ storeOfJson v = .ok s := by
      cases storeOfJson v <;> simp [Except.mapError]
    simp only [hmap, storeOfJson_eq_ok, Except.ok.injEq]

end Command

/-! ## (2) The store -/

namespace Store

/-- Strings are equal as keys only if they are the same. -/
theorem looseEq_string (a b : String) : (Value.string a).looseEq (.string b) = (a == b) := by
  show (some (compare a b) == some .eq) = (a == b)
  rw [Bool.eq_iff_iff, beq_iff_eq, beq_iff_eq, Option.some.injEq, Std.LawfulEqCmp.compare_eq_iff_eq]

theorem putEntry_of_new {key : Value} {entries : List (Value × Entity)} (e : Entity)
    (h : ∀ k ∈ entries.map (·.1), k.looseEq key = false) : putEntry key e entries = entries ++ [(key, e)] := by
  induction entries with
  | nil => rfl
  | cons entry entries ih =>
    obtain ⟨hentry, hrest⟩ := List.forall_mem_cons.mp h
    rw [putEntry, hentry, if_neg (by decide), ih hrest, List.cons_append]

/-- Entries of different names all stay, in their order. -/
theorem bucket_foldl_put {α : Type} (key : α → String) (entity : α → Entity) (entries : List α) {s : Store}
    (read : List α) (hs : s.bucket = read.map fun f => (.string (key f), entity f))
    (h : ((read ++ entries).map key).Nodup) :
    (entries.foldl (fun s f => s.put (.string (key f)) (entity f)) s).bucket =
      (read ++ entries).map fun f => (.string (key f), entity f) := by
  induction entries generalizing s read with
  | nil => rw [List.foldl_nil, List.append_nil, hs]
  | cons f entries ih =>
    have hnew : ∀ k ∈ s.bucket.map (·.1), k.looseEq (.string (key f)) = false := by
      intro k hk
      rw [hs, List.map_map] at hk
      obtain ⟨g, hg, rfl⟩ := List.mem_map.mp hk
      show (Value.string (key g)).looseEq (.string (key f)) = false
      rw [looseEq_string]
      refine beq_false_of_ne fun heq => ?_
      rw [List.map_append] at h
      exact List.disjoint_of_nodup_append h (List.mem_map_of_mem hg) (heq ▸ List.mem_map_of_mem List.mem_cons_self)
    have hput : (s.put (.string (key f)) (entity f)).bucket = (read ++ [f]).map fun f => (.string (key f), entity f) := by
      show putEntry _ _ s.bucket = _
      rw [putEntry_of_new _ hnew, hs, List.map_append, List.map_singleton]
    rw [List.foldl_cons, List.append_cons]
    exact ih (read ++ [f]) hput (by rwa [← List.append_cons])

theorem collections_foldl_put {α : Type} (key : α → Value) (entity : α → Entity) (entries : List α) (s : Store) :
    (entries.foldl (fun s f => s.put (key f) (entity f)) s).collections = s.collections := by
  induction entries generalizing s with
  | nil => rfl
  | cons f entries ih => exact ih (s.put (key f) (entity f))

theorem bucket_foldl_add (es : List Entity) (s : Store) : (es.foldl add s).bucket = s.bucket := by
  induction es generalizing s with
  | nil => rfl
  | cons e es ih => exact ih (s.add e)

theorem entities_foldl_add (es : List Entity) (s : Store) (name : String) :
    (es.foldl add s).entities name = s.entities name ++ es.filter (·.name == name) := by
  induction es generalizing s with
  | nil => exact (List.append_nil _).symm
  | cons e es ih =>
    rw [List.foldl_cons, ih, entities_add, List.filter_cons]
    by_cases h : name = e.name
    · rw [if_pos h, if_pos (beq_iff_eq.mpr h.symm), List.append_assoc, List.singleton_append]
    · rw [if_neg h, if_neg fun hname => h (beq_iff_eq.mp hname).symm]

end Store

namespace Command

variable {fields : List (String × Json)}

/-- A key finds its own entry, if names differ. -/
theorem get_loaded (h : ((Json.fieldsUnder fields "bucket").map (·.1)).Nodup) {key : String} {v : Json}
    (hv : (key, v) ∈ Json.fieldsUnder fields "bucket") : (loaded fields).get [.string key] = [entityAt key v] := by
  have hbucket : (loaded fields).bucket =
      (Json.fieldsUnder fields "bucket").map fun f => (.string f.1, entityAt f.1 f.2) := by
    rw [loaded, Store.bucket_foldl_add]
    exact Store.bucket_foldl_put Prod.fst (fun f => entityAt f.1 f.2) _ [] rfl h
  rw [Store.get_single, hbucket]
  generalize Json.fieldsUnder fields "bucket" = entries at h hv
  induction entries with
  | nil => cases hv
  | cons f entries ih =>
    obtain ⟨hnew, hrest⟩ := List.nodup_cons.mp h
    rw [List.map_cons, Store.lookup?_cons, Store.looseEq_string]
    rcases List.mem_cons.mp hv with rfl | hin
    · rw [if_pos (beq_self_eq_true key)]
      rfl
    · have hother : f.1 ≠ key := fun heq => hnew (List.mem_map.mpr ⟨_, hin, heq.symm⟩)
      rw [beq_false_of_ne hother, if_neg (by decide)]
      exact ih hrest hin

theorem filter_entitiesAt (name : String) (f : String × Json) :
    (f.2.items.map (entityAt f.1)).filter (·.name == name) =
      if f.1 = name then f.2.items.map (entityAt name) else [] := by
  split
  · next hname =>
    subst hname
    refine List.filter_eq_self.mpr fun e he => ?_
    obtain ⟨w, -, rfl⟩ := List.mem_map.mp he
    exact beq_self_eq_true f.1
  · next hname =>
    refine List.filter_eq_nil_iff.mpr fun e he heq => hname ?_
    obtain ⟨w, -, rfl⟩ := List.mem_map.mp he
    exact beq_iff_eq.mp heq

theorem filter_listed_of_notMem {collections : List (String × Json)} {name : String}
    (h : name ∉ collections.map (·.1)) : (listed collections).filter (·.name == name) = [] := by
  rw [listed, List.filter_flatMap]
  refine List.flatMap_eq_nil_iff.mpr fun f hf => ?_
  rw [filter_entitiesAt]
  exact if_neg fun hname => h (List.mem_map.mpr ⟨f, hf, hname⟩)

theorem filter_listed {collections : List (String × Json)} (h : (collections.map (·.1)).Nodup) {name : String} {v : Json}
    (hv : (name, v) ∈ collections) :
    (listed collections).filter (·.name == name) = v.items.map (entityAt name) := by
  induction collections with
  | nil => cases hv
  | cons f collections ih =>
    obtain ⟨hnew, hrest⟩ := List.nodup_cons.mp h
    have hsplit : (listed (f :: collections)).filter (·.name == name) =
        (if f.1 = name then f.2.items.map (entityAt name) else []) ++ (listed collections).filter (·.name == name) := by
      rw [← filter_entitiesAt, ← List.filter_append]
      rfl
    rw [hsplit]
    rcases List.mem_cons.mp hv with rfl | hin
    · rw [if_pos rfl, filter_listed_of_notMem hnew, List.append_nil]
    · rw [if_neg fun hname => hnew (List.mem_map.mpr ⟨_, hin, hname.symm⟩), List.nil_append]
      exact ih hrest hin

/-- A collection holds its own entities, in the order of its list, if names differ. -/
theorem entities_loaded (h : ((Json.fieldsUnder fields "collections").map (·.1)).Nodup) {name : String} {v : Json}
    (hv : (name, v) ∈ Json.fieldsUnder fields "collections") :
    (loaded fields).entities name = v.items.map (entityAt name) := by
  have hnone : ∀ entries : List (String × Json),
      (entries.foldl (fun s f => s.put (.string f.1) (entityAt f.1 f.2)) Store.empty).entities name = [] := by
    intro entries
    rw [Store.entities, Store.collection?, Store.collections_foldl_put]
    rfl
  rw [loaded, Store.entities_foldl_add, hnone, List.nil_append]
  exact filter_listed h hv

end Command

end EntityQuery
