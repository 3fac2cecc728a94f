/-
  EntityQuery.Proofs.Bucket — the bucket as a map from keys to entities.

  (1) Lookups. Getting several keys gets them one after the other. What is put under a
  key is found there at once. What other keys find is another matter: a key may be
  equal to two that differ from each other, and then what is put under one of them is
  put under the other as well (`Store.put_changes_other_key`).

  (2) Laws. Where a number bridges no two floats among a key of the bucket, one of a
  change and the one that is looked up, the bucket is a map up to loose equality
  (`Store.bucket_laws`). So what a key finds after a run is what the last change to touch
  it left there (`Store.get_run`).
-/

import EntityQuery.Proofs.Invariants

namespace EntityQuery

open Value

namespace Store

/-! ## (1) Lookups -/

/-- The first entity under a key. -/
def lookup? (entries : List (Value × Entity)) (key : Value) : Option Entity :=
  (entries.find? (·.1.looseEq key)).map (·.2)

theorem lookup?_cons (k key : Value) (e : Entity) (entries : List (Value × Entity)) :
    lookup? ((k, e) :: entries) key = if k.looseEq key then some e else lookup? entries key := by
  unfold lookup?
  rw [List.find?_cons]
  cases k.looseEq key <;> rfl

theorem get_single (s : Store) (key : Value) : s.get [key] = (lookup? s.bucket key).toList := by
  show List.filterMap s.find? [key] = (s.find? key).toList
  rw [List.filterMap_cons]
  cases s.find? key <;> rfl

theorem get_eq_flatMap (s : Store) (ks : List Value) : s.get ks = ks.flatMap fun k => s.get [k] := by
  induction ks with
  | nil => rfl
  | cons k ks ih =>
    rw [List.flatMap_cons, ← ih, get_single]
    show List.filterMap s.find? (k :: ks) = (s.find? k).toList ++ List.filterMap s.find? ks
    rw [List.filterMap_cons]
    cases s.find? k <;> rfl

section Put

variable {key j : Value} (e : Entity)

/-- A key finds what is put under an equal one, if every key there is equal to both or
    to none of them. -/
theorem lookup?_putEntry_self (hkey : key.looseEq j = true) (entries : List (Value × Entity))
    (h : ∀ k ∈ entries.map (·.1), k.looseEq key = k.looseEq j) : lookup? (putEntry key e entries) j = some e := by
  induction entries with
  | nil => rw [putEntry, lookup?_cons, if_pos hkey]
  | cons entry entries ih =>
    obtain ⟨k, old⟩ := entry
    obtain ⟨hk, hrest⟩ := List.forall_mem_cons.mp h
    rw [putEntry, hk]
    cases hj : k.looseEq j with
    | true => rw [if_pos rfl, lookup?_cons, if_pos hj]
    | false =>
      rw [if_neg (by decide), lookup?_cons, hj, if_neg (by decide)]
      exact ih hrest

/-- A key finds what it found before, if no key there is equal to both. -/
theorem lookup?_putEntry_of_ne (hkey : key.looseEq j = false) (entries : List (Value × Entity))
    (h : ∀ k ∈ entries.map (·.1), k.looseEq key = true → k.looseEq j = false) :
    lookup? (putEntry key e entries) j = lookup? entries j := by
  induction entries with
  | nil =>
    rw [putEntry, lookup?_cons, hkey]
    rfl
  | cons entry entries ih =>
    obtain ⟨k, old⟩ := entry
    obtain ⟨hk, hrest⟩ := List.forall_mem_cons.mp h
    rw [putEntry, lookup?_cons]
    split
    · next heq =>
      rw [lookup?_cons, hk heq]
      rfl
    · rw [lookup?_cons, ih hrest]

end Put

theorem lookup?_filter_none {kept : Value × Entity → Bool} {j : Value} {entries : List (Value × Entity)}
    (h : ∀ entry ∈ entries, entry.1.looseEq j = true → kept entry = false) :
    lookup? (entries.filter kept) j = none := by
  have hnone : (entries.filter kept).find? (·.1.looseEq j) = none := by
    refine List.find?_eq_none.mpr fun entry hmem hj => ?_
    obtain ⟨hentry, hkept⟩ := List.mem_filter.mp hmem
    rw [h entry hentry hj] at hkept
    cases hkept
  rw [lookup?, hnone]
  rfl

theorem lookup?_filter_of_kept {kept : Value × Entity → Bool} {j : Value} {entries : List (Value × Entity)}
    (h : ∀ entry ∈ entries, entry.1.looseEq j = true → kept entry = true) :
    lookup? (entries.filter kept) j = lookup? entries j := by
  induction entries with
  | nil => rfl
  | cons entry entries ih =>
    obtain ⟨k, e⟩ := entry
    obtain ⟨hentry, hrest⟩ := List.forall_mem_cons.mp h
    rw [List.filter_cons, lookup?_cons]
    split
    · rw [lookup?_cons, ih hrest]
    · next hnot =>
      have hj : k.looseEq j = false := Bool.eq_false_iff.mpr fun hj => hnot (hentry hj)
      rw [hj, ih hrest]
      rfl

/-- What is put under a key is found there. -/
theorem get_put_self {k : Value} (hk : k.hasNaN = false) (s : Store) (e : Entity) : (s.put k e).get [k] = [e] := by
  rw [get_single]
  show (lookup? (putEntry k e s.bucket) k).toList = [e]
  rw [lookup?_putEntry_self e (looseEq_self k hk) s.bucket fun _ _ => rfl]
  rfl

/-! ## (2) Laws -/

/-- A put is found under all keys that are equal to its own, and under no other. -/
theorem get_put {s : Store} {k j : Value} (h : ∀ stored ∈ s.keys, Unbridged [stored, k, j]) (e : Entity) :
    (s.put k e).get [j] = if k.looseEq j then [e] else s.get [j] := by
  rw [get_single, get_single]
  show (lookup? (putEntry k e s.bucket) j).toList = _
  split
  · next hkj =>
    have hboth : ∀ stored ∈ s.keys, stored.looseEq k = stored.looseEq j := by
      intro stored hstored
      have htriple : Unbridged [k, j, stored] := (h stored hstored).of_subset (by simp)
      rw [looseEq_comm stored k, looseEq_comm stored j, looseEq_congr htriple hkj]
    rw [lookup?_putEntry_self e hkj s.bucket hboth]
    rfl
  · next hkj =>
    have hne : k.looseEq j = false := Bool.eq_false_iff.mpr hkj
    have hnone : ∀ stored ∈ s.keys, stored.looseEq k = true → stored.looseEq j = false := by
      intro stored hstored heq
      rw [looseEq_congr (h stored hstored) heq, hne]
    rw [lookup?_putEntry_of_ne e hne s.bucket hnone]

/-- A deletion takes what is under the keys that are equal to one of its own, and nothing
    else. -/
theorem get_delete {s : Store} {j : Value} {ks : List Value}
    (h : ∀ stored ∈ s.keys, ∀ k ∈ ks, Unbridged [stored, k, j]) :
    (s.delete ks).get [j] = if ks.any (·.looseEq j) then [] else s.get [j] := by
  have hfound : ∀ entry ∈ s.bucket, entry.1.looseEq j = true →
      ks.any (entry.1.looseEq ·) = ks.any (·.looseEq j) := by
    intro entry hentry hj
    have heach : ∀ k ∈ ks, entry.1.looseEq k = k.looseEq j := by
      intro k hk
      have htriple : Unbridged [entry.1, j, k] := (h _ (List.mem_map_of_mem hentry) k hk).of_subset (by simp)
      rw [looseEq_congr htriple hj, looseEq_comm]
    rw [Bool.eq_iff_iff, List.any_eq_true, List.any_eq_true]
    exact exists_congr fun k => and_congr_right fun hk => by rw [heach k hk]
  rw [get_single, get_single]
  show (lookup? (s.bucket.filter fun entry => !ks.any (entry.1.looseEq ·)) j).toList = _
  split
  · next hany =>
    rw [lookup?_filter_none fun entry hentry hj => ?_]
    · rfl
    · rw [hfound entry hentry hj, hany]
      rfl
  · next hany =>
    rw [lookup?_filter_of_kept fun entry hentry hj => ?_]
    rw [hfound entry hentry hj, Bool.eq_false_iff.mpr hany]
    rfl

end Store

namespace Change

open Store

/-- The keys that a change of the bucket is about. -/
def keys : Change → List Value
  | .put key _ => [key]
  | .query (.delete keys) => keys
  | _ => []

/-- What a change leaves under a key where something was found before. -/
def leaves (j : Value) (found : List Entity) : Change → List Entity
  | .put key e => if key.looseEq j then [e] else found
  | .query (.delete keys) => if keys.any (·.looseEq j) then [] else found
  | _ => found

theorem get_apply {s : Store} {j : Value} {c : Change} (h : ∀ stored ∈ s.keys, ∀ k ∈ c.keys, Unbridged [stored, k, j]) :
    (c.apply s).get [j] = c.leaves j (s.get [j]) := by
  have hrest : c.onBucket = false → (c.apply s).get [j] = s.get [j] := by
    intro hc
    rw [get_single, get_single, bucket_apply hc]
  cases c with
  | put key e => exact get_put (fun stored hstored => h stored hstored key (List.mem_singleton.mpr rfl)) e
  | add e => exact hrest rfl
  | query q =>
    cases q with
    | get keys => rfl
    | delete keys => exact get_delete h
    | _ => exact hrest rfl

/-- Keys of the bucket come from changes of it. -/
theorem mem_keys_apply {s : Store} {c : Change} {k : Value} (h : k ∈ (c.apply s).keys) : k ∈ c.keys ++ s.keys := by
  have hrest : c.onBucket = false → k ∈ c.keys ++ s.keys := by
    intro hc
    rw [Store.keys, bucket_apply hc] at h
    exact List.mem_append_right _ h
  cases c with
  | put key e =>
    have hkeys : k ∈ (putEntry key e s.bucket).map (·.1) := h
    rw [keys_putEntry] at hkeys
    split at hkeys
    · exact List.mem_cons_of_mem _ hkeys
    · rcases List.mem_append.mp hkeys with hold | hnew
      · exact List.mem_cons_of_mem _ hold
      · exact List.mem_append_left _ hnew
  | add e => exact hrest rfl
  | query q =>
    cases q with
    | get keys => exact h
    | delete keys =>
      obtain ⟨entry, hentry, rfl⟩ := List.mem_map.mp h
      exact List.mem_append_right _ (List.mem_map_of_mem (List.mem_filter.mp hentry).1)
    | _ => exact hrest rfl

end Change

namespace Store

/-- After a run, a key finds what the last change to touch it left there. -/
theorem get_run {j : Value} (changes : List Change) {s : Store}
    (h : Unbridged (j :: changes.flatMap Change.keys ++ s.keys)) :
    (run changes s).get [j] = changes.foldl (Change.leaves j) (s.get [j]) := by
  induction changes generalizing s with
  | nil => rfl
  | cons c changes ih =>
    have hmem : ∀ k, k ∈ j :: (c :: changes).flatMap Change.keys ++ s.keys ↔
        k = j ∨ k ∈ c.keys ∨ k ∈ changes.flatMap Change.keys ∨ k ∈ s.keys := by simp
    have hnow : ∀ stored ∈ s.keys, ∀ k ∈ c.keys, Unbridged [stored, k, j] := by
      intro stored hstored k hk
      refine h.of_subset fun v hv => (hmem v).mpr ?_
      simp only [List.mem_cons, List.not_mem_nil, or_false] at hv
      rcases hv with rfl | rfl | rfl
      · exact .inr (.inr (.inr hstored))
      · exact .inr (.inl hk)
      · exact .inl rfl
    have hlater : Unbridged (j :: changes.flatMap Change.keys ++ (c.apply s).keys) := by
      refine h.of_subset fun v hv => (hmem v).mpr ?_
      rcases List.mem_append.mp hv with hasked | hstored
      · exact (List.mem_cons.mp hasked).imp_right fun hchange => .inr (.inl hchange)
      · rcases List.mem_append.mp (Change.mem_keys_apply hstored) with hkey | hold
        · exact .inr (.inl hkey)
        · exact .inr (.inr (.inr hold))
    rw [List.foldl_cons, ← Change.get_apply hnow]
    exact ih hlater

/-- The bucket as a map up to loose equality. What was just put is found there, and
    several keys find what each of them does. For the rest, no number may bridge floats
    among a key of the bucket, one of the change and the one that is looked up. -/
theorem bucket_laws (s : Store) (k : Value) (e : Entity) (ks js : List Value) (hk : k.hasNaN = false) :
    (s.put k e).get [k] = [e] ∧
    (∀ j, (∀ stored ∈ s.keys, Unbridged [stored, k, j]) →
      (s.put k e).get [j] = if k.looseEq j then [e] else s.get [j]) ∧
    (∀ j, (∀ stored ∈ s.keys, ∀ d ∈ ks, Unbridged [stored, d, j]) →
      (s.delete ks).get [j] = if ks.any (·.looseEq j) then [] else s.get [j]) ∧
    s.get js = js.flatMap fun j => s.get [j] := by
  refine ⟨get_put_self hk s e, fun j hj => ?_, fun j hj => ?_, get_eq_flatMap s js⟩
  · exact get_put hj e
  · exact get_delete hj

/-- Numbers of three kinds, alone and in lists. The float replaces the entity under the
    integer, and the list of a decimal deletes the one under the list of an integer. -/
theorem bucket_laws_mixed :
    let one : Value := .float (.ofInt 1)
    let s : Store := (empty.put (.integer 1) ada).put (.array [.integer 2]) bob
    let two : Value := .array [.decimal (.ofInt64 2)]
    one.hasNaN = false ∧ (s.put one bob).get [one] = [bob] ∧
    (∀ stored ∈ s.keys, Unbridged [stored, one, .integer 1]) ∧ (s.put one bob).get [.integer 1] = [bob] ∧
    (∀ stored ∈ s.keys, ∀ d ∈ [two], Unbridged [stored, d, .array [.integer 2]]) ∧
    (s.delete [two]).get [.array [.integer 2]] = [] ∧
    s.get [.integer 1, .null, .array [.integer 2]] = [ada, bob] := by
  intro one s two
  have hput : ∀ stored ∈ s.keys, Unbridged [stored, one, .integer 1] := by decide +kernel
  have hdelete : ∀ stored ∈ s.keys, ∀ d ∈ [two], Unbridged [stored, d, .array [.integer 2]] := by decide +kernel
  obtain ⟨hself, hother, hgone, heach⟩ :=
    bucket_laws s one bob [two] [.integer 1, .null, .array [.integer 2]] (by decide)
  refine ⟨by decide, hself, hput, ?_, hdelete, ?_, ?_⟩
  · rw [hother _ hput, if_pos (by decide +kernel)]
  · rw [hgone _ hdelete, if_pos (by decide +kernel)]
  · rw [heach]
    rfl

/-- What is put under one of two keys is put under the other if a key that is there is
    equal to both. -/
theorem get_put_bridged {n x y : Value} (hx : n.looseEq x = true) (hy : n.looseEq y = true) (old e : Entity) :
    ((empty.put n old).put x e).get [y] = [e] := by
  rw [get_single]
  show (lookup? (if n.looseEq x then [(n, e)] else _) y).toList = [e]
  rw [if_pos hx, lookup?_cons, if_pos hy]
  rfl

/-- One and the float right below it differ, and yet what is put under the one is found
    under the other, since an integer is there that is equal to both. -/
theorem put_changes_other_key :
    let s := empty.put (.integer 1) ada
    let one : Value := .float (.ofInt 1)
    one.hasNaN = false ∧ belowOne.hasNaN = false ∧ one.looseEq belowOne = false ∧
    s.get [belowOne] = [ada] ∧ (s.put one bob).get [belowOne] = [bob] ∧ [ada] ≠ [bob] := by
  intro s one
  obtain ⟨hone, hbelow, hdiffer⟩ := one_equals_two_floats
  refine ⟨by decide, by decide, hdiffer, ?_, get_put_bridged hone hbelow ada bob, ?_⟩
  · rw [get_single]
    show (lookup? [(.integer 1, ada)] belowOne).toList = [ada]
    rw [lookup?_cons, if_pos hbelow]
    rfl
  · simp [ada, bob]

end Store

end EntityQuery
