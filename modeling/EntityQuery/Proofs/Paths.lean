/-
  EntityQuery.Proofs.Paths — reading and writing along paths.

  (1) One name. Of two values put under a name the second stays, putting back what is
  there changes nothing, and values put under two names may be put in either order
  (`Fields.put_put`, `Fields.put_lookup`, `Fields.put_comm`).

  (2) Chains of names. What is read at the end of a path or behind it lies in the value
  written there, and paths that lead neither through the end of this one nor to a place
  on the way to it read what they read before (`Fields.get?_set_append`,
  `Fields.get?_set_of_incomparable`). Writing forgets what was written at the same
  path or behind it, and writing at incomparable paths commutes
  (`Fields.set_forgets`, `Fields.set_comm`).

  (3) Entities. So paths are lenses (`Entity.lens_laws`), and an entity to which fields
  are assigned whose paths are incomparable has them all (`Store.get?_assign`).
-/

import EntityQuery.Storage.Store

namespace EntityQuery

namespace Fields

/-! ## (1) One name -/

section Put

variable {name other : String} {v w : Value} {fields : Fields}

theorem any_replace : (replace name v fields).any (·.1 == other) = fields.any (·.1 == other) := by
  induction fields with
  | nil => rfl
  | cons f fs ih =>
    unfold replace
    split
    · next hf => simp [beq_iff_eq.mp hf]
    · simp [ih]

theorem any_insertNew :
    (insertNew name v fields).any (·.1 == other) = (name == other || fields.any (·.1 == other)) := by
  induction fields with
  | nil => rfl
  | cons f fs ih =>
    unfold insertNew
    split
    · rfl
    · simp [ih, Bool.or_left_comm]

theorem replace_replace : replace name w (replace name v fields) = replace name w fields := by
  induction fields with
  | nil => rfl
  | cons f fs ih =>
    by_cases hf : f.1 = name
    · simp [replace, hf]
    · simp [replace, hf, ih]

theorem replace_lookup (h : fields.lookup? name = some v) : replace name v fields = fields := by
  induction fields with
  | nil => rfl
  | cons f fs ih =>
    by_cases hf : f.1 = name
    · obtain rfl : f.2 = v := by simpa [lookup?, hf] using h
      simp [replace, ← hf]
    · have hfs : lookup? fs name = some v := by simpa [lookup?, hf] using h
      simp [replace, hf, ih hfs]

theorem replace_insertNew (h : fields.any (·.1 == name) = false) :
    replace name w (insertNew name v fields) = insertNew name w fields := by
  induction fields with
  | nil => simp [insertNew, replace]
  | cons f fs ih =>
    obtain ⟨hf, hfs⟩ := Bool.or_eq_false_iff.mp h
    unfold insertNew
    split
    · simp [replace]
    · simp [replace, hf, ih hfs]

theorem replace_comm (h : other ≠ name) :
    replace other w (replace name v fields) = replace name v (replace other w fields) := by
  induction fields with
  | nil => rfl
  | cons f fs ih =>
    by_cases hf : f.1 = name
    · simp [replace, hf, h.symm]
    · by_cases ho : f.1 = other
      · simp [replace, ho, h]
      · simp [replace, hf, ho, ih]

/-- A replacement keeps the names, and they alone say where a new field goes. -/
theorem replace_insertNew_comm (h : other ≠ name) :
    replace other w (insertNew name v fields) = insertNew name v (replace other w fields) := by
  induction fields with
  | nil => simp [insertNew, replace, h.symm]
  | cons f fs ih =>
    by_cases ho : f.1 = other
    · by_cases hlt : name < other
      · simp [insertNew, replace, ho, hlt, h.symm]
      · simp [insertNew, replace, ho, hlt]
    · by_cases hlt : name < f.1
      · simp [insertNew, replace, ho, hlt, h.symm]
      · simp [insertNew, replace, ho, hlt, ih]

theorem insertNew_comm (h : other ≠ name) :
    insertNew other w (insertNew name v fields) = insertNew name v (insertNew other w fields) := by
  -- Two names that stop in front of the same field stand there in their own order.
  induction fields with
  | nil => grind [insertNew]
  | cons f fs ih => grind [insertNew]

theorem put_put : (fields.put name v).put name w = fields.put name w := by
  unfold put
  cases h : fields.any (·.1 == name) with
  | true => simp only [if_true, any_replace, h, replace_replace]
  | false => simp [any_insertNew, replace_insertNew h]

theorem put_lookup (h : fields.lookup? name = some v) : fields.put name v = fields := by
  have hany : fields.any (·.1 == name) = true := by
    obtain ⟨f, hf, -⟩ := Option.map_eq_some_iff.mp h
    exact List.any_eq_true.mpr ⟨f, List.mem_of_find?_eq_some hf, by simpa using List.find?_some hf⟩
  rw [put, if_pos hany, replace_lookup h]

theorem put_comm (h : other ≠ name) : (fields.put name v).put other w = (fields.put other w).put name v := by
  have hname : (name == other) = false := beq_false_of_ne h.symm
  have hother : (other == name) = false := beq_false_of_ne h
  unfold put
  cases hn : fields.any (·.1 == name) <;> cases ho : fields.any (·.1 == other) <;>
    simp only [any_replace, any_insertNew, hn, ho, hname, hother, Bool.false_or, if_true, Bool.false_eq_true, if_false]
  · exact insertNew_comm h
  · exact replace_insertNew_comm h
  · exact (replace_insertNew_comm h.symm).symm
  · exact replace_comm h

end Put

/-! ## (2) Chains of names -/

theorem get?_cons (fields : Fields) (name : String) (names : List String) :
    fields.get? (name :: names) = (fields.lookup? name).bind (Value.descend? · names) := rfl

/-- The document under a name is read as its inner fields are. -/
theorem get?_inner (fields : Fields) (name : String) {names : List String} (h : names ≠ []) :
    fields.get? (name :: names) = (fields.inner name).get? names := by
  obtain ⟨next, rest, rfl⟩ := List.exists_cons_of_ne_nil h
  rw [get?_cons, inner]
  cases fields.lookup? name with
  | none => rfl
  | some v =>
    cases v with
    | object fs => rfl
    | _ => rfl

/-- Writing at a longer path is writing in the document under its first name. -/
theorem set_cons (fields : Fields) (value : Value) (name : String) {names : List String} (h : names ≠ []) :
    fields.set value (name :: names) = fields.put name (.object ((fields.inner name).set value names)) := by
  obtain ⟨next, rest, rfl⟩ := List.exists_cons_of_ne_nil h
  rfl

theorem inner_put_self (fields inside : Fields) (name : String) :
    (fields.put name (.object inside)).inner name = inside := by
  rw [inner, lookup_put_self]
  rfl

theorem inner_put_of_ne (fields : Fields) {name other : String} (value : Value) (h : other ≠ name) :
    (fields.put name value).inner other = fields.inner other := by
  rw [inner, inner, lookup_put_of_ne fields name other value h]

/-- Inner fields that are there are those of a document. -/
theorem lookup_of_inner {fields : Fields} {name : String} (h : fields.inner name ≠ []) :
    fields.lookup? name = some (.object (fields.inner name)) := by
  unfold inner at h ⊢
  cases hv : fields.lookup? name with
  | none =>
    rw [hv] at h
    exact absurd rfl h
  | some v =>
    rw [hv] at h
    cases v with
    | object fs => rfl
    | _ => exact absurd rfl h

/-- Writing puts a value under the first name, which depends on the inner fields there. -/
theorem exists_set_eq_put (value : Value) (name : String) (names : List String) :
    ∃ write : Fields → Value, ∀ fields, set fields value (name :: names) = fields.put name (write (fields.inner name)) := by
  by_cases h : names = []
  · subst h
    exact ⟨fun _ => value, fun _ => rfl⟩
  · exact ⟨fun inside => .object (inside.set value names), fun fields => set_cons fields value name h⟩

theorem get?_put_of_ne (fields : Fields) {name other : String} (value : Value) (h : other ≠ name)
    (names : List String) : (fields.put name value).get? (other :: names) = fields.get? (other :: names) := by
  rw [get?_cons, get?_cons, lookup_put_of_ne fields name other value h]

/-- What is read at the end of a path or behind it lies in the value written there. -/
theorem get?_set_append (fields : Fields) (value : Value) {path : List String} (h : path ≠ []) (rest : List String) :
    (fields.set value path).get? (path ++ rest) = value.descend? rest := by
  induction path generalizing fields with
  | nil => exact absurd rfl h
  | cons name names ih =>
    by_cases hnames : names = []
    · subst hnames
      show (fields.put name value).get? (name :: rest) = value.descend? rest
      rw [get?_cons, lookup_put_self]
      rfl
    · have hlong : names ++ rest ≠ [] := fun h => hnames (List.append_eq_nil_iff.mp h).1
      rw [set_cons fields value name hnames, List.cons_append, get?_inner _ name hlong, inner_put_self]
      exact ih (fields.inner name) hnames

theorem get?_set_self (fields : Fields) (value : Value) {path : List String} (h : path ≠ []) :
    (fields.set value path).get? path = some value := by
  have hread := get?_set_append fields value h []
  rwa [List.append_nil] at hread

theorem get?_set_of_incomparable (fields : Fields) (value : Value) {path other : List String} (hpath : ¬ path <+: other)
    (hother : ¬ other <+: path) : (fields.set value path).get? other = fields.get? other := by
  induction path generalizing fields other with
  | nil => exact absurd List.nil_prefix hpath
  | cons name names ih =>
    cases other with
    | nil => exact absurd List.nil_prefix hother
    | cons name' names' =>
      -- Both paths go on inside the document under one name, or they part here.
      by_cases hname : name' = name
      · subst hname
        have hnames : ¬ names <+: names' := fun h => hpath ((List.prefix_cons_inj name').mpr h)
        have hnames' : ¬ names' <+: names := fun h => hother ((List.prefix_cons_inj name').mpr h)
        have hlong : names ≠ [] := fun h => hnames (h ▸ List.nil_prefix)
        have hlong' : names' ≠ [] := fun h => hnames' (h ▸ List.nil_prefix)
        rw [set_cons fields value name' hlong, get?_inner _ name' hlong', inner_put_self,
          get?_inner fields name' hlong']
        exact ih (fields.inner name') hnames hnames'
      · by_cases hlong : names = []
        · subst hlong
          exact get?_put_of_ne fields value hname names'
        · rw [set_cons fields value name hlong]
          exact get?_put_of_ne fields _ hname names'

/-- Writing forgets what was written at the same path or behind it. -/
theorem set_forgets (fields : Fields) (v w : Value) {path longer : List String} (h : path ≠ [])
    (hlonger : path <+: longer) : (fields.set v longer).set w path = fields.set w path := by
  obtain ⟨rest, rfl⟩ := hlonger
  induction path generalizing fields with
  | nil => exact absurd rfl h
  | cons name names ih =>
    by_cases hnames : names = []
    · subst hnames
      obtain ⟨write, hwrite⟩ := exists_set_eq_put v name rest
      show (fields.set v (name :: rest)).put name w = fields.put name w
      rw [hwrite, put_put]
    · have hlong : names ++ rest ≠ [] := fun h => hnames (List.append_eq_nil_iff.mp h).1
      rw [List.cons_append, set_cons fields v name hlong, set_cons _ w name hnames, set_cons fields w name hnames,
        inner_put_self, put_put, ih (fields.inner name) hnames]

theorem set_comm (fields : Fields) (v w : Value) {path other : List String} (hpath : ¬ path <+: other)
    (hother : ¬ other <+: path) : (fields.set v path).set w other = (fields.set w other).set v path := by
  induction path generalizing fields other with
  | nil => exact absurd List.nil_prefix hpath
  | cons name names ih =>
    cases other with
    | nil => exact absurd List.nil_prefix hother
    | cons name' names' =>
      by_cases hname : name' = name
      · subst hname
        have hnames : ¬ names <+: names' := fun h => hpath ((List.prefix_cons_inj name').mpr h)
        have hnames' : ¬ names' <+: names := fun h => hother ((List.prefix_cons_inj name').mpr h)
        have hlong : names ≠ [] := fun h => hnames (h ▸ List.nil_prefix)
        have hlong' : names' ≠ [] := fun h => hnames' (h ▸ List.nil_prefix)
        simp only [set_cons _ _ name' hlong, set_cons _ _ name' hlong', inner_put_self, put_put]
        rw [ih (fields.inner name') hnames hnames']
      · obtain ⟨write, hwrite⟩ := exists_set_eq_put v name names
        obtain ⟨write', hwrite'⟩ := exists_set_eq_put w name' names'
        have hname' : name ≠ name' := fun h => hname h.symm
        rw [hwrite, hwrite', hwrite', hwrite, inner_put_of_ne _ _ hname, inner_put_of_ne _ _ hname', put_comm hname]

/-- Writing back what is read changes nothing. -/
theorem set_get? {fields : Fields} {value : Value} {path : List String} (h : fields.get? path = some value) :
    fields.set value path = fields := by
  induction path generalizing fields with
  | nil => cases h
  | cons name names ih =>
    by_cases hnames : names = []
    · subst hnames
      obtain ⟨v, hv, hvalue⟩ := Option.bind_eq_some_iff.mp h
      obtain rfl : v = value := Option.some.inj hvalue
      exact put_lookup hv
    · rw [get?_inner fields name hnames] at h
      have hinside : fields.inner name ≠ [] := by
        obtain ⟨next, rest, rfl⟩ := List.exists_cons_of_ne_nil hnames
        intro hnone
        rw [hnone] at h
        cases h
      rw [set_cons fields value name hnames, ih h, put_lookup (lookup_of_inner hinside)]

end Fields

/-! ## (3) Entities -/

namespace Entity

theorem segments_ne_nil (path : String) : segments path ≠ [] := by
  intro h
  exact List.splitOn_ne_nil '.' path.toList (List.map_eq_nil_iff.mp h)

/-- Neither of two paths leads to a place on the way to the end of the other. -/
def Incomparable (p q : String) : Prop := ¬ segments p <+: segments q ∧ ¬ segments q <+: segments p

instance (p q : String) : Decidable (Incomparable p q) := inferInstanceAs (Decidable (_ ∧ _))

theorem get?_set_self (e : Entity) (path : String) (value : Value) : (e.set path value).get? path = some value :=
  Fields.get?_set_self e.fields value (segments_ne_nil path)

theorem get?_set_of_incomparable (e : Entity) {path other : String} (value : Value) (h : Incomparable path other) :
    (e.set path value).get? other = e.get? other :=
  Fields.get?_set_of_incomparable e.fields value h.1 h.2

theorem set_forgets (e : Entity) {path longer : String} (v w : Value) (h : segments path <+: segments longer) :
    (e.set longer v).set path w = e.set path w :=
  congrArg (Entity.mk e.name) (Fields.set_forgets e.fields v w (segments_ne_nil path) h)

theorem set_comm (e : Entity) {path other : String} (v w : Value) (h : Incomparable path other) :
    (e.set path v).set other w = (e.set other w).set path v :=
  congrArg (Entity.mk e.name) (Fields.set_comm e.fields v w h.1 h.2)

/-- A point between two paths joins them. -/
theorem segments_join (p q : String) : segments (p ++ "." ++ q) = segments p ++ segments q := by
  have htext : (p ++ "." ++ q).toList = p.toList ++ '.' :: q.toList := by simp
  have hsplit : (p.toList ++ '.' :: q.toList).splitOn '.' = p.toList.splitOn '.' ++ q.toList.splitOn '.' :=
    List.splitOnP_append_cons _ _ (beq_self_eq_true '.')
  rw [segments, segments, segments, htext, hsplit, List.map_append]

/-- A path is read in a value as in an entity of its fields, if it is a document. -/
theorem descend?_segments (v : Value) (path name : String) : v.descend? (segments path) =
    match v with
    | .object fields => get? ⟨name, fields⟩ path
    | _ => none := by
  obtain ⟨first, names, hpath⟩ := List.exists_cons_of_ne_nil (segments_ne_nil path)
  unfold get?
  rw [hpath]
  cases v <;> rfl

/-- Paths are lenses, with empty names in them or not. What was written is read, also
    behind the path; reading and writing elsewhere are as before; of two writes at one
    path the second stays, and writing back what is read changes nothing. -/
theorem lens_laws (e : Entity) (p q : String) (v w : Value) :
    (e.set p v).get? p = some v ∧
    (∀ rest, segments q = segments p ++ rest → (e.set p v).get? q = v.descend? rest) ∧
    (∀ r, (e.set p v).get? (p ++ "." ++ r) = match v with
      | .object fields => get? ⟨e.name, fields⟩ r
      | _ => none) ∧
    (¬ segments p <+: segments q → ¬ segments q <+: segments p →
      (e.set p v).get? q = e.get? q ∧ (e.set p v).set q w = (e.set q w).set p v) ∧
    (e.set p v).set p w = e.set p w ∧
    (e.get? p = some v → e.set p v = e) ∧
    (e.set p v).name = e.name := by
  have hbehind : ∀ path rest, segments path = segments p ++ rest → (e.set p v).get? path = v.descend? rest := by
    intro path rest hpath
    have hread := Fields.get?_set_append e.fields v (segments_ne_nil p) rest
    rwa [← hpath] at hread
  refine ⟨e.get?_set_self p v, hbehind q, fun r => ?_, fun hp hq => ?_, ?_, fun h => ?_, rfl⟩
  · rw [hbehind _ _ (segments_join p r)]
    exact descend?_segments v r e.name
  · exact ⟨e.get?_set_of_incomparable v ⟨hp, hq⟩, e.set_comm v w ⟨hp, hq⟩⟩
  · exact e.set_forgets v w (List.prefix_refl _)
  · exact congrArg (Entity.mk e.name) (Fields.set_get? h)

/-- A town stands where a document is to be, and another path has an empty name. -/
theorem lens_laws_homes :
    let e : Entity := ⟨"Person", [("", .integer 1), ("home", .string "London")]⟩
    let town : Value := .object [("name", .string "Paris")]
    segments "home.town.name" = segments "home.town" ++ ["name"] ∧
    (e.set "home.town" town).get? "home.town.name" = town.descend? ["name"] ∧
    ¬ segments "home.town" <+: segments "home..zip" ∧ ¬ segments "home..zip" <+: segments "home.town" ∧
    (e.set "home.town" town).set "home..zip" .null = (e.set "home..zip" .null).set "home.town" town ∧
    e.get? "" = some (.integer 1) ∧ e.set "" (.integer 1) = e := by
  intro e town
  have hname : segments "home.town.name" = segments "home.town" ++ ["name"] := by decide
  have hzip : ¬ segments "home.town" <+: segments "home..zip" := by decide
  have hzip' : ¬ segments "home..zip" <+: segments "home.town" := by decide
  obtain ⟨-, hread, -⟩ := lens_laws e "home.town" "home.town.name" town .null
  obtain ⟨-, -, -, hapart, -⟩ := lens_laws e "home.town" "home..zip" town .null
  obtain ⟨-, -, -, -, -, hback, -⟩ := lens_laws e "" "" (.integer 1) .null
  exact ⟨hname, hread _ hname, hzip, hzip', (hapart hzip hzip').2, rfl, hback rfl⟩

end Entity

namespace Store

theorem get?_assign_of_incomparable (items : List (Assignment Value)) (e : Entity) {path : String}
    (h : ∀ a ∈ items, Entity.Incomparable a.field path) : (assign items e).get? path = e.get? path := by
  induction items generalizing e with
  | nil => rfl
  | cons a items ih =>
    obtain ⟨ha, hitems⟩ := List.forall_mem_cons.mp h
    exact (ih (e.set a.field a.value) hitems).trans (e.get?_set_of_incomparable a.value ha)

/-- Fields with incomparable paths are all there after they are assigned. -/
theorem get?_assign {items : List (Assignment Value)}
    (h : items.Pairwise fun a b => Entity.Incomparable a.field b.field) (e : Entity) : ∀ a ∈ items, (assign items e).get? a.field = some a.value := by
  induction items generalizing e with
  | nil => exact nofun
  | cons b items ih =>
    obtain ⟨hb, hitems⟩ := List.pairwise_cons.mp h
    refine List.forall_mem_cons.mpr ⟨?_, ih hitems (e.set b.field b.value)⟩
    have hkept := get?_assign_of_incomparable items (e.set b.field b.value) fun a ha => (hb a ha).symm
    exact hkept.trans (e.get?_set_self b.field b.value)

end Store

end EntityQuery
