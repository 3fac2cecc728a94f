/-
  EntityQuery.Proofs.Invariants — what holds of every store.

  (1) Changes. A store is changed by puts and adds and by queries. A loaded store is
  what puts and adds make of the empty one (`Store.run_of_loadData`).

  (2) What one change does to the keys of the bucket and to the collections: a put adds
  at most its own key, an add appends to one collection, and an update replaces a
  collection by one as long. Changes of the bucket leave the collections as they are,
  and the other way round.

  (3) Invariant. Keys of the bucket differ, and collections have one name each, which
  all their entities carry (`Store.WellFormed`). Every change keeps this, so it holds
  after every run from the empty store or a loaded one (`store_invariants`).
-/

import EntityQuery.Command.Data
import EntityQuery.Proofs.LooseEquality
import EntityQuery.Proofs.Substitution

namespace EntityQuery

/-! ## (1) Changes -/

/-- Something done to a store. -/
inductive Change where
  | put (key : Value) (e : Entity)
  | add (e : Entity)
  | query (q : Query Value)

namespace Change

/-- The store after a change. A query may fail. -/
def apply (s : Store) : Change → Store
  | .put key e => s.put key e
  | .add e => s.add e
  | .query q => (Store.manager.execute q s).2

/-- Whether a change is one of the bucket, not of the collections. -/
def onBucket : Change → Bool
  | .put .. | .query (.get _) | .query (.delete _) => true
  | _ => false

end Change

namespace Store

def run (changes : List Change) (s : Store) : Store := changes.foldl Change.apply s

/-! ### Loading -/

theorem run_of_loadBucket {entries : List (String × Json)} {s t : Store} (h : Command.loadBucket s entries = .ok t) :
    ∃ changes, t = run changes s := by
  induction entries generalizing s with
  | nil => exact ⟨[], (Except.ok.inj h).symm⟩
  | cons entry entries ih =>
    obtain ⟨key, v⟩ := entry
    obtain ⟨e, -, hrest⟩ := except_bind_eq_ok.mp h
    obtain ⟨changes, rfl⟩ := ih hrest
    exact ⟨.put (.string key) e :: changes, rfl⟩

theorem run_of_loadEntities {name : String} {items : List Json} {s t : Store}
    (h : Command.loadEntities s name items = .ok t) : ∃ changes, t = run changes s := by
  induction items generalizing s with
  | nil => exact ⟨[], (Except.ok.inj h).symm⟩
  | cons v items ih =>
    obtain ⟨e, -, hrest⟩ := except_bind_eq_ok.mp h
    obtain ⟨changes, rfl⟩ := ih hrest
    exact ⟨.add e :: changes, rfl⟩

theorem run_of_loadCollections {collections : List (String × Json)} {s t : Store}
    (h : Command.loadCollections s collections = .ok t) : ∃ changes, t = run changes s := by
  induction collections generalizing s with
  | nil => exact ⟨[], (Except.ok.inj h).symm⟩
  | cons c collections ih =>
    obtain ⟨name, v⟩ := c
    cases v with
    | array items =>
      obtain ⟨u, hitems, hrest⟩ := except_bind_eq_ok.mp h
      obtain ⟨changes, rfl⟩ := run_of_loadEntities hitems
      obtain ⟨later, rfl⟩ := ih hrest
      exact ⟨changes ++ later, List.foldl_append.symm⟩
    | _ => cases h

/-- A loaded store is what some changes make of the empty one. -/
theorem run_of_loadData {text : String} {s : Store} (h : Command.loadData text = .ok s) :
    ∃ changes, s = run changes empty := by
  unfold Command.loadData at h
  split at h
  · next v _ =>
    cases hs : Command.storeOfJson v with
    | error fault => rw [hs] at h; cases h
    | ok t =>
      rw [hs] at h
      obtain rfl : t = s := Except.ok.inj h
      cases v with
      | object fields =>
        obtain ⟨entries, -, hs⟩ := except_bind_eq_ok.mp hs
        obtain ⟨u, hbucket, hs⟩ := except_bind_eq_ok.mp hs
        obtain ⟨collections, -, hcollections⟩ := except_bind_eq_ok.mp hs
        obtain ⟨changes, rfl⟩ := run_of_loadBucket hbucket
        obtain ⟨later, rfl⟩ := run_of_loadCollections hcollections
        exact ⟨changes ++ later, List.foldl_append.symm⟩
      | _ => cases hs
  · cases h

/-! ## (2) One change -/

/-- The keys of the bucket, as they were first written. -/
def keys (s : Store) : List Value := s.bucket.map (·.1)

/-- The names of the collections. -/
def names (s : Store) : List String := s.collections.map (·.1)

theorem keys_putEntry (key : Value) (e : Entity) (entries : List (Value × Entity)) :
    (putEntry key e entries).map (·.1) =
      if entries.any (·.1.looseEq key) then entries.map (·.1) else entries.map (·.1) ++ [key] := by
  induction entries with
  | nil => rfl
  | cons entry entries ih =>
    obtain ⟨k, old⟩ := entry
    rw [putEntry, List.any_cons]
    cases hk : k.looseEq key with
    | true => rfl
    | false =>
      rw [if_neg (by decide), List.map_cons, ih, Bool.false_or]
      split <;> rfl

theorem names_addEntity (e : Entity) (collections : List (String × List Entity)) :
    (addEntity e collections).map (·.1) =
      if collections.any (·.1 == e.name) then collections.map (·.1) else collections.map (·.1) ++ [e.name] := by
  induction collections with
  | nil => rfl
  | cons c collections ih =>
    obtain ⟨name, es⟩ := c
    rw [addEntity, List.any_cons]
    cases hname : name == e.name with
    | true => rfl
    | false =>
      rw [if_neg (by decide), List.map_cons, ih, Bool.false_or]
      split <;> rfl

theorem mem_addEntity {e : Entity} {c : String × List Entity} {collections : List (String × List Entity)}
    (h : c ∈ addEntity e collections) :
    c ∈ collections ∨ c.1 = e.name ∧ ∃ es, (es = [] ∨ (c.1, es) ∈ collections) ∧ c.2 = es ++ [e] := by
  induction collections with
  | nil =>
    obtain rfl := List.mem_singleton.mp h
    exact .inr ⟨rfl, [], .inl rfl, rfl⟩
  | cons d collections ih =>
    obtain ⟨name, es⟩ := d
    rw [addEntity] at h
    split at h
    · next hname =>
      rcases List.mem_cons.mp h with rfl | hrest
      · exact .inr ⟨beq_iff_eq.mp hname, es, .inr List.mem_cons_self, rfl⟩
      · exact .inl (List.mem_cons_of_mem _ hrest)
    · rcases List.mem_cons.mp h with rfl | hrest
      · exact .inl List.mem_cons_self
      · rcases ih hrest with hmem | ⟨hname, es', hes, heq⟩
        · exact .inl (List.mem_cons_of_mem _ hmem)
        · exact .inr ⟨hname, es', hes.imp_right (List.mem_cons_of_mem _), heq⟩

theorem lookup_collection_cons (n name : String) (es : List Entity) (collections : List (String × List Entity)) :
    ((n, es) :: collections).lookup name = if name = n then some es else collections.lookup name := by
  rw [List.lookup_cons]
  by_cases hname : name = n
  · rw [if_pos hname, hname, beq_self_eq_true]
  · rw [if_neg hname, beq_false_of_ne hname]

theorem lookup_addEntity (e : Entity) (name : String) (collections : List (String × List Entity)) :
    (addEntity e collections).lookup name =
      if name = e.name then some ((collections.lookup name).getD [] ++ [e]) else collections.lookup name := by
  induction collections with
  | nil => exact lookup_collection_cons e.name name [e] []
  | cons c collections ih =>
    obtain ⟨n, es⟩ := c
    rw [addEntity]
    split
    · next hn =>
      rw [← beq_iff_eq.mp hn, lookup_collection_cons, lookup_collection_cons]
      split <;> rfl
    · next hn =>
      rw [lookup_collection_cons, lookup_collection_cons, ih]
      by_cases hname : name = n
      · have hother : name ≠ e.name := fun h => hn (beq_iff_eq.mpr (hname.symm.trans h))
        rw [if_pos hname, if_pos hname, if_neg hother]
      · rw [if_neg hname, if_neg hname]

theorem entities_add (s : Store) (e : Entity) (name : String) :
    (s.add e).entities name = if name = e.name then s.entities name ++ [e] else s.entities name := by
  show ((addEntity e s.collections).lookup name).getD [] = _
  rw [lookup_addEntity]
  split <;> rfl

theorem names_setCollection (name : String) (es : List Entity) (collections : List (String × List Entity)) :
    (setCollection name es collections).map (·.1) = collections.map (·.1) := by
  induction collections with
  | nil => rfl
  | cons c collections ih =>
    rw [setCollection]
    split
    · rfl
    · rw [List.map_cons, ih, List.map_cons]

theorem mem_setCollection {name : String} {es : List Entity} {c : String × List Entity}
    {collections : List (String × List Entity)} (h : c ∈ setCollection name es collections) :
    c ∈ collections ∨ c = (name, es) := by
  induction collections with
  | nil => cases h
  | cons d collections ih =>
    obtain ⟨n, old⟩ := d
    rw [setCollection] at h
    split at h
    · next hn =>
      rcases List.mem_cons.mp h with rfl | hrest
      · exact .inr (congrArg (·, es) (beq_iff_eq.mp hn))
      · exact .inl (List.mem_cons_of_mem _ hrest)
    · rcases List.mem_cons.mp h with rfl | hrest
      · exact .inl List.mem_cons_self
      · exact (ih hrest).imp_left (List.mem_cons_of_mem _)

theorem lookup_setCollection (name other : String) (es : List Entity) (collections : List (String × List Entity)) :
    (setCollection name es collections).lookup other =
      if other = name then (collections.lookup other).map fun _ => es else collections.lookup other := by
  induction collections with
  | nil =>
    rw [setCollection]
    split <;> rfl
  | cons c collections ih =>
    obtain ⟨n, old⟩ := c
    rw [setCollection]
    split
    · next hn =>
      rw [← beq_iff_eq.mp hn, lookup_collection_cons, lookup_collection_cons]
      split <;> rfl
    · next hn =>
      rw [lookup_collection_cons, lookup_collection_cons, ih]
      by_cases hother : other = n
      · have hdiffer : other ≠ name := fun h => hn (beq_iff_eq.mpr (hother.symm.trans h))
        rw [if_pos hother, if_pos hother, if_neg hdiffer]
      · rw [if_neg hother, if_neg hother]

theorem assign_name (items : List (Assignment Value)) (e : Entity) : (assign items e).name = e.name := by
  induction items generalizing e with
  | nil => rfl
  | cons item items ih => exact ih _

/-- An update replaces a collection that is there by one of the same names, or it does
    nothing. -/
theorem update_cases (s : Store) (q : UpdateQuery Value) : (manager.update q s).2 = s ∨
    ∃ es changed, s.collection? q.entity = some es ∧ changed.map Entity.name = es.map Entity.name ∧
      (manager.update q s).2 = { s with collections := setCollection q.entity changed s.collections } := by
  cases hu : s.update q with
  | error e => exact .inl (by simp only [manager, hu])
  | ok r =>
    have hafter : (manager.update q s).2 = r.2 := by simp only [manager, hu]
    rw [hafter]
    unfold update at hu
    cases hes : s.collection? q.entity with
    | none =>
      rw [hes] at hu
      exact .inl (by rw [← Except.ok.inj hu])
    | some es =>
      rw [hes] at hu
      cases hkeep : Filter.keeping q.condition with
      | error e => rw [hkeep] at hu; cases hu
      | ok keep =>
        rw [hkeep] at hu
        have hnames : (es.map fun e => if keep e then assign q.set e else e).map Entity.name = es.map Entity.name := by
          rw [List.map_map]
          refine List.map_congr_left fun e _ => ?_
          show (if keep e then assign q.set e else e).name = e.name
          split
          · exact assign_name q.set e
          · rfl
        exact .inr ⟨es, _, rfl, hnames, by rw [← Except.ok.inj hu]⟩

theorem collections_apply {c : Change} (h : c.onBucket = true) (s : Store) :
    (c.apply s).collections = s.collections := by
  cases c with
  | put key e => rfl
  | add e => cases h
  | query q => cases q <;> first | rfl | cases h

theorem bucket_apply {c : Change} (h : c.onBucket = false) (s : Store) : (c.apply s).bucket = s.bucket := by
  cases c with
  | put key e => cases h
  | add e => rfl
  | query q =>
    cases q with
    | get keys => cases h
    | delete keys => cases h
    | select q => rfl
    | update q =>
      show (manager.update q s).2.bucket = s.bucket
      rcases update_cases s q with hsame | ⟨es, changed, -, -, hafter⟩
      · rw [hsame]
      · rw [hafter]
    | insert q => rfl

theorem length_entities_update (s : Store) (q : UpdateQuery Value) (name : String) :
    (((manager.update q s).2).entities name).length = (s.entities name).length := by
  rcases update_cases s q with hsame | ⟨es, changed, hes, hnames, hafter⟩
  · rw [hsame]
  · rw [hafter]
    show (((setCollection q.entity changed s.collections).lookup name).getD []).length = _
    rw [lookup_setCollection]
    split
    · next hname =>
      have hlookup : s.collections.lookup name = some es := hname ▸ hes
      have hlength : changed.length = es.length := by simpa using congrArg List.length hnames
      rw [entities, collection?, hlookup]
      exact hlength
    · rfl

/-- No collection gets shorter. -/
theorem length_entities_apply (s : Store) (c : Change) (name : String) :
    (s.entities name).length ≤ ((c.apply s).entities name).length := by
  have hadd : ∀ e, (s.entities name).length ≤ ((s.add e).entities name).length := by
    intro e
    rw [entities_add]
    split
    · simp
    · exact Nat.le_refl _
  cases c with
  | put key e => exact Nat.le_refl _
  | add e => exact hadd e
  | query q =>
    cases q with
    | update q => exact (length_entities_update s q name).ge
    | insert q => exact hadd _
    | _ => exact Nat.le_refl _

theorem length_entities_run (s : Store) (changes : List Change) (name : String) :
    (s.entities name).length ≤ ((run changes s).entities name).length := by
  induction changes generalizing s with
  | nil => exact Nat.le_refl _
  | cons c changes ih => exact (length_entities_apply s c name).trans (ih (c.apply s))

/-! ## (3) The invariant -/

structure WellFormed (s : Store) : Prop where
  keys_differ : s.keys.Pairwise fun k j => k.looseEq j = false
  names_differ : s.names.Nodup
  nonempty : ∀ c ∈ s.collections, c.2 ≠ []
  named : ∀ c ∈ s.collections, ∀ e ∈ c.2, e.name = c.1

theorem wellFormed_empty : empty.WellFormed := ⟨.nil, .nil, nofun, nofun⟩

namespace WellFormed

variable {s : Store}

theorem put (h : s.WellFormed) (key : Value) (e : Entity) : (s.put key e).WellFormed := by
  have hkeys : (s.put key e).keys.Pairwise fun k j => k.looseEq j = false := by
    show ((putEntry key e s.bucket).map (·.1)).Pairwise fun k j => k.looseEq j = false
    rw [keys_putEntry]
    split
    · exact h.keys_differ
    · next hnew =>
      refine List.pairwise_append.mpr ⟨h.keys_differ, List.pairwise_singleton _ _, fun k hk j hj => ?_⟩
      obtain rfl := List.mem_singleton.mp hj
      obtain ⟨entry, hentry, rfl⟩ := List.mem_map.mp hk
      exact Bool.eq_false_iff.mpr fun heq => hnew (List.any_eq_true.mpr ⟨entry, hentry, heq⟩)
  exact ⟨hkeys, h.names_differ, h.nonempty, h.named⟩

theorem delete (h : s.WellFormed) (ks : List Value) : (s.delete ks).WellFormed := by
  have hsub : (s.delete ks).keys.Sublist s.keys := List.filter_sublist.map _
  exact ⟨h.keys_differ.sublist hsub, h.names_differ, h.nonempty, h.named⟩

theorem add (h : s.WellFormed) (e : Entity) : (s.add e).WellFormed := by
  have hnames : (s.add e).names.Nodup := by
    show ((addEntity e s.collections).map (·.1)).Nodup
    rw [names_addEntity]
    split
    · exact h.names_differ
    · next hnew =>
      refine List.nodup_append.mpr ⟨h.names_differ, List.pairwise_singleton _ _, fun name hname other hother heq => ?_⟩
      obtain rfl := List.mem_singleton.mp hother
      obtain ⟨c, hc, rfl⟩ := List.mem_map.mp hname
      exact hnew (List.any_eq_true.mpr ⟨c, hc, beq_iff_eq.mpr heq⟩)
  refine ⟨h.keys_differ, hnames, fun c hc => ?_, fun c hc e' he' => ?_⟩
  · rcases mem_addEntity hc with hold | ⟨-, es, -, heq⟩
    · exact h.nonempty c hold
    · rw [heq]
      simp
  · rcases mem_addEntity hc with hold | ⟨hname, es, hes, heq⟩
    · exact h.named c hold e' he'
    · rw [heq] at he'
      rcases List.mem_append.mp he' with hin | hlast
      · rcases hes with rfl | hold
        · cases hin
        · exact h.named _ hold e' hin
      · rw [List.mem_singleton.mp hlast, hname]

theorem update (h : s.WellFormed) (q : UpdateQuery Value) : ((manager.update q s).2).WellFormed := by
  rcases update_cases s q with hsame | ⟨es, changed, hes, hnames, hafter⟩
  · rw [hsame]
    exact h
  rw [hafter]
  have hold : (q.entity, es) ∈ s.collections := by
    obtain ⟨before, after, hsplit, -⟩ := List.lookup_eq_some_iff.mp hes
    rw [hsplit]
    simp
  have hnodup : ((setCollection q.entity changed s.collections).map (·.1)).Nodup := by
    rw [names_setCollection]
    exact h.names_differ
  refine ⟨h.keys_differ, hnodup, fun c hc => ?_, fun c hc e he => ?_⟩
  · rcases mem_setCollection hc with hc | rfl
    · exact h.nonempty c hc
    · intro hnil
      obtain rfl : changed = [] := hnil
      exact h.nonempty _ hold (List.map_eq_nil_iff.mp hnames.symm)
  · rcases mem_setCollection hc with hc | rfl
    · exact h.named c hc e he
    · have hname : e.name ∈ es.map Entity.name := hnames ▸ List.mem_map_of_mem he
      obtain ⟨old, hin, heq⟩ := List.mem_map.mp hname
      rw [← heq]
      exact h.named _ hold old hin

theorem apply (h : s.WellFormed) (c : Change) : (c.apply s).WellFormed := by
  cases c with
  | put key e => exact h.put key e
  | add e => exact h.add e
  | query q =>
    cases q with
    | get keys => exact h
    | delete keys => exact h.delete keys
    | select q => exact h
    | update q => exact h.update q
    | insert q => exact h.add _

theorem run (h : s.WellFormed) (changes : List Change) : (run changes s).WellFormed := by
  induction changes generalizing s with
  | nil => exact h
  | cons c changes ih => exact ih (h.apply c)

end WellFormed

end Store

/-- After every run from the empty store or a loaded one, keys at different places of the
    bucket differ, collections have different names, none is empty, all entities of one
    carry its name, and none gets shorter. Changes of the bucket leave the collections as
    they are, and the other way round. -/
theorem store_invariants (start : Store) (changes : List Change)
    (hstart : start = .empty ∨ ∃ text, Command.loadData text = .ok start) :
    let s := Store.run changes start
    (∀ i j (hi : i < s.bucket.length) (hj : j < s.bucket.length), i ≠ j →
      s.bucket[i].1.looseEq s.bucket[j].1 = false) ∧
    (s.collections.map (·.1)).Nodup ∧
    (∀ name es, (name, es) ∈ s.collections → es ≠ [] ∧ ∀ e ∈ es, e.name = name) ∧
    (∀ later name, (s.entities name).length ≤ ((Store.run later s).entities name).length) ∧
    (∀ c : Change, c.onBucket = true → (c.apply s).collections = s.collections) ∧
    (∀ c : Change, c.onBucket = false → (c.apply s).bucket = s.bucket) := by
  intro s
  have hwell : s.WellFormed := by
    rcases hstart with rfl | ⟨text, htext⟩
    · exact Store.wellFormed_empty.run changes
    · obtain ⟨loading, rfl⟩ := Store.run_of_loadData htext
      exact (Store.wellFormed_empty.run loading).run changes
  have hordered : ∀ i j (hi : i < s.bucket.length) (hj : j < s.bucket.length), i < j →
      s.bucket[i].1.looseEq s.bucket[j].1 = false :=
    fun i j hi hj hij => List.pairwise_iff_getElem.mp (List.pairwise_map.mp hwell.keys_differ) i j hi hj hij
  refine ⟨fun i j hi hj hne => ?_, hwell.names_differ, fun name es h => ⟨hwell.nonempty _ h, hwell.named _ h⟩,
    Store.length_entities_run s, fun c hc => Store.collections_apply hc s, fun c hc => Store.bucket_apply hc s⟩
  rcases Nat.lt_or_gt_of_ne hne with hlt | hgt
  · exact hordered i j hi hj hlt
  · rw [Value.looseEq_comm]
    exact hordered j i hj hi hgt

def ada : Entity := ⟨"Person", [("name", .string "Ada")]⟩

def bob : Entity := ⟨"Person", [("name", .string "Bob")]⟩

/-- One entity in the bucket and one in a collection. -/
def adaText : String :=
  "\x7b\"bucket\": \x7b\"ada\": \x7b\"name\": \"Ada\"\x7d\x7d, " ++
  "\"collections\": \x7b\"Person\": [\x7b\"name\": \"Ada\"\x7d]\x7d\x7d"

/-- The second put replaces what the first one put. -/
def bobChanges : List Change :=
  [.put (.integer 1) ada, .put (.float (.ofInt 1)) bob, .query (.insert ⟨"Person", [⟨"name", .string "Bob"⟩]⟩)]

theorem store_invariants_loaded :
    ∃ start, Command.loadData adaText = .ok start ∧
      let s := Store.run bobChanges start
      s.bucketSize = 2 ∧ (s.entities "Person").length = 2 ∧
      (∀ i j (hi : i < s.bucket.length) (hj : j < s.bucket.length), i ≠ j →
        s.bucket[i].1.looseEq s.bucket[j].1 = false) ∧
      (∀ name es, (name, es) ∈ s.collections → es ≠ [] ∧ ∀ e ∈ es, e.name = name) := by
  have hsizes : (Command.loadData adaText).toOption.map (fun start =>
      ((Store.run bobChanges start).bucketSize, ((Store.run bobChanges start).entities "Person").length)) =
      some (2, 2) := by decide +kernel
  obtain ⟨start, hstart, hcounts⟩ := Option.map_eq_some_iff.mp hsizes
  have hload : Command.loadData adaText = .ok start := except_toOption_eq_some.mp hstart
  obtain ⟨hbucket, hpeople⟩ := Prod.mk.inj hcounts
  obtain ⟨hkeys, -, hnamed, -⟩ := store_invariants start bobChanges (.inr ⟨adaText, hload⟩)
  exact ⟨start, hload, hbucket, hpeople, hkeys, hnamed⟩

end EntityQuery
