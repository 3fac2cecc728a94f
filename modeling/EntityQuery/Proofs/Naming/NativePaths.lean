/-
  EntityQuery.Proofs.Naming.NativePaths — the native path of a field, and a resolver
  that finds it by places in lists (`native_path`).

  (1) Parts. Every part of a name but the first begins with an ASCII capital
  (`capital_of_mem_tail`), so writing it with a capital changes nothing.

  (2) Mapped fields. Of several fields of one name the last one registered counts
  (`mapping?_eq`). A name that is not a field is joined part by part, and the shortest
  run of parts that is one becomes the parent (`parentPath?_of_first`).

  (3) Places. A resolver may see the characters of a name, its parts and the fields of
  its table by their places only, and ask a list for a place it does not have. It never
  does, and what it finds is the native path (`Indexed.resolve_eq`).
-/

import Mathlib.Data.List.Induction
import EntityQuery.Proofs.Naming.Memory

namespace EntityQuery.Naming

/-! ## (1) Parts -/

/-- Changes the first character by a case mapping. -/
def recaseFirst (recase : Char → List Char) : List Char → List Char
  | [] => []
  | c :: cs => recase c ++ cs

/-- A mapping to upper case leaves the capitals of ASCII as they are. -/
def KeepsCapitals (upper : Char → List Char) : Prop := ∀ c, c.isUpper = true → upper c = [c]

theorem keepsCapitals_toUpper : KeepsCapitals fun c => [c.toUpper] := by
  intro c hc
  have hlast : c.val ≤ 'Z'.val := (of_decide_eq_true hc).2
  have hcapital : ¬ ('a'.val ≤ c.val ∧ c.val ≤ 'z'.val) := fun h => absurd (UInt32.le_trans h.1 hlast) (by decide)
  have hkept : c.toUpper = c := dif_neg hcapital
  exact congrArg (fun d => [d]) hkept

def StartsCapital (part : List Char) : Prop := ∃ c cs, part = c :: cs ∧ c.isUpper = true

theorem StartsCapital.recaseFirst {upper : Char → List Char} (hupper : KeepsCapitals upper) {part : List Char}
    (h : StartsCapital part) : recaseFirst upper part = part := by
  obtain ⟨c, cs, rfl, hc⟩ := h
  show upper c ++ cs = c :: cs
  rw [hupper c hc]
  rfl

/-- The part that is held begins as it does now, and every part after it with a capital. -/
theorem splitAfter_eq_cons (before start : Char) (held cs : List Char) :
    ∃ rest parts, splitAfter before (held ++ [start]) cs = (start :: rest) :: parts ∧ ∀ p ∈ parts, StartsCapital p := by
  induction cs generalizing before start held with
  | nil => exact ⟨held.reverse, [], by simp [splitAfter], List.forall_mem_nil _⟩
  | cons c cs ih =>
    unfold splitAfter
    split
    · next hboundary =>
      obtain ⟨rest, parts, hcs, hparts⟩ := ih c c []
      have hcapital : StartsCapital (c :: rest) := ⟨c, rest, rfl, (Bool.and_eq_true_iff.mp hboundary).1⟩
      refine ⟨held.reverse, (c :: rest) :: parts, ?_, List.forall_mem_cons.mpr ⟨hcapital, hparts⟩⟩
      rw [← hcs, List.reverse_concat]
      rfl
    · exact ih c start (c :: held)

theorem splitCamel_eq_cons (c : Char) (cs : List Char) :
    ∃ rest parts, splitCamel (c :: cs) = (c :: rest) :: parts ∧ ∀ p ∈ parts, StartsCapital p :=
  splitAfter_eq_cons c c [] cs

theorem part_ne_nil {name part : List Char} (h : part ∈ splitCamel name) : part ≠ [] := by
  cases name with
  | nil => cases h
  | cons c cs =>
    obtain ⟨rest, parts, hsplit, hparts⟩ := splitCamel_eq_cons c cs
    rw [hsplit] at h
    rcases List.mem_cons.mp h with rfl | h
    · exact List.cons_ne_nil c rest
    · obtain ⟨d, ds, rfl, -⟩ := hparts part h
      exact List.cons_ne_nil d ds

theorem capital_of_mem_tail {name part : List Char} (h : part ∈ (splitCamel name).tail) : StartsCapital part := by
  cases name with
  | nil => cases h
  | cons c cs =>
    obtain ⟨rest, parts, hsplit, hparts⟩ := splitCamel_eq_cons c cs
    rw [hsplit] at h
    exact hparts part h

/-! ## (2) Mapped fields -/

/-- The field that was registered last under a name. -/
def lastNamed (fields : List FieldMapping) (name : String) : Option FieldMapping :=
  (fields.filter (·.fieldName == name)).getLast?

theorem lastNamed_concat (fields : List FieldMapping) (f : FieldMapping) (name : String) :
    lastNamed (fields ++ [f]) name = if f.fieldName = name then some f else lastNamed fields name := by
  unfold lastNamed
  by_cases hf : f.fieldName = name <;> simp [List.filter_append, hf]

/-- Parts joined onto characters that are there; the first letter of all is lowered. -/
def joinOnto (joined : List Char) (parts : List (List Char)) : List Char :=
  parts.foldl (fun joined part => joined ++ (if joined.isEmpty then Text.lowerFirst part else part)) joined

theorem joinOnto_of_ne_nil {joined : List Char} (h : joined ≠ []) (parts : List (List Char)) :
    joinOnto joined parts = joined ++ parts.flatten := by
  induction parts generalizing joined with
  | nil => simp [joinOnto]
  | cons part parts ih =>
    have hempty : joined.isEmpty = false := List.isEmpty_eq_false_iff.mpr h
    show joinOnto (joined ++ (if joined.isEmpty then Text.lowerFirst part else part)) parts = _
    rw [hempty, if_neg Bool.false_ne_true, ih (List.append_ne_nil_of_left_ne_nil h part), List.flatten_cons,
      List.append_assoc]

/-- The first parts of a name as one name: the first letter of the first is lowered. -/
def runOf (parts : List (List Char)) (count : Nat) : String :=
  match parts.take count with
  | [] => ""
  | part :: more => String.ofList (Text.lowerFirst part ++ more.flatten)

theorem lowerFirst_ne_nil {part : List Char} (h : part ≠ []) : Text.lowerFirst part ≠ [] := by
  obtain ⟨c, cs, rfl⟩ := List.exists_cons_of_ne_nil h
  have hlower : Text.lowerCase c ≠ [] := by
    unfold Text.lowerCase
    repeat' split
    all_goals exact List.cons_ne_nil _ _
  exact List.append_ne_nil_of_left_ne_nil hlower cs

theorem runOf_eq {parts : List (List Char)} (h : ∀ part ∈ parts, part ≠ []) (count : Nat) :
    runOf parts count = String.ofList (joinOnto [] (parts.take count)) := by
  unfold runOf
  cases htake : parts.take count with
  | nil => rfl
  | cons part more =>
    have hpart : part ≠ [] := h part (List.mem_of_mem_take (htake ▸ List.mem_cons_self))
    show _ = String.ofList (joinOnto (Text.lowerFirst part) more)
    rw [joinOnto_of_ne_nil (lowerFirst_ne_nil hpart)]

namespace EntityMapping

variable (m : EntityMapping)

theorem mapping?_eq (name : String) : m.mapping? name = lastNamed m.fields name := by
  rw [mapping?, lastNamed, ← List.head?_filter, List.filter_reverse, List.head?_reverse]

theorem parentPath?_of_first {joined : List Char} {parts : List (List Char)} {count : Nat} {f : FieldMapping}
    (hcount : count < parts.length)
    (hmapped : m.mapping? (String.ofList (joinOnto joined (parts.take (count + 1)))) = some f)
    (hfirst : ∀ k < count, m.mapping? (String.ofList (joinOnto joined (parts.take (k + 1)))) = none) :
    m.parentPath? joined parts = some (f.native ++ String.ofList (nestedPath (parts.drop (count + 1)))) := by
  induction parts generalizing joined count with
  | nil => cases hcount
  | cons part parts ih =>
    unfold parentPath?
    cases count with
    | zero =>
      have hhead : m.mapping? (String.ofList (joined ++ (if joined.isEmpty then Text.lowerFirst part else part))) = some f :=
        hmapped
      simp only [hhead]
      rfl
    | succ count =>
      have hhead : m.mapping? (String.ofList (joined ++ (if joined.isEmpty then Text.lowerFirst part else part))) = none :=
        hfirst 0 (Nat.succ_pos count)
      simp only [hhead]
      exact ih (Nat.lt_of_succ_lt_succ hcount) hmapped fun k hk => hfirst (k + 1) (Nat.succ_lt_succ hk)

theorem parentPath?_of_none {joined : List Char} {parts : List (List Char)}
    (h : ∀ count < parts.length, m.mapping? (String.ofList (joinOnto joined (parts.take (count + 1)))) = none) :
    m.parentPath? joined parts = none := by
  induction parts generalizing joined with
  | nil => rfl
  | cons part parts ih =>
    have hhead : m.mapping? (String.ofList (joined ++ (if joined.isEmpty then Text.lowerFirst part else part))) = none :=
      h 0 (Nat.succ_pos _)
    unfold parentPath?
    simp only [hhead]
    exact ih fun count hcount => h (count + 1) (Nat.succ_lt_succ hcount)

end EntityMapping

/-! ## (3) Places -/

/-- A place asked for, in a list of so many items. -/
structure OutOfRange where
  place : Nat
  length : Nat

namespace Indexed

def itemAt {α : Type} (items : List α) (place : Nat) : Except OutOfRange α :=
  match items[place]? with
  | some item => .ok item
  | none => .error ⟨place, items.length⟩

def itemsFrom {α : Type} (items : List α) (place : Nat) : Except OutOfRange (List α) :=
  if place ≤ items.length then .ok (items.drop place) else .error ⟨place, items.length⟩

/-- The fields in the order of their registration, and an index: at which place the last
    field of each name is. A later entry of the index stands before an earlier one. -/
structure Table where
  fields : List FieldMapping
  places : List (String × Nat)

def Table.push (t : Table) (f : FieldMapping) : Table :=
  ⟨t.fields ++ [f], (f.fieldName, t.fields.length) :: t.places⟩

def Table.ofList (fields : List FieldMapping) : Table := fields.foldl push ⟨[], []⟩

def Table.mapping? (t : Table) (name : String) : Except OutOfRange (Option FieldMapping) :=
  match t.places.lookup name with
  | some place => (itemAt t.fields place).map some
  | none => .ok none

def Table.column (t : Table) (name : String) : Except OutOfRange String :=
  (t.mapping? name).map fun found => (found.map (·.native)).getD name

/-- One turn over the characters of a name: the parts that are finished, and the one that
    is not. -/
def splitStep (chars : List Char) : List (List Char) × List Char → Char × Nat →
    Except OutOfRange (List (List Char) × List Char)
  | (parts, part), (c, place) =>
    if 0 < place ∧ part.isEmpty = false then
      (itemAt chars (place - 1)).map fun before =>
        if isBoundary before c chars[place + 1]? then (parts ++ [part], [c]) else (parts, part ++ [c])
    else .ok (parts, part ++ [c])

def split (chars : List Char) : Except OutOfRange (List (List Char)) :=
  (chars.zipIdx.foldlM (splitStep chars) ([], [])).map fun (parts, part) =>
    if part.isEmpty then parts else parts ++ [part]

def nestedPath (parts : List (List Char)) (place : Nat) : Except OutOfRange (List Char) :=
  match parts[place + 1]? with
  | some next => (itemsFrom parts (place + 2)).map fun more => '.' :: Text.lowerFirst next ++ more.flatten
  | none => .ok []

/-- Goes on with the parts from a place; those behind the first are written with a capital. -/
def search (t : Table) (upper : Char → List Char) (parts : List (List Char)) (joined : List Char) :
    List (List Char × Nat) → Except OutOfRange (Option String)
  | [] => .ok none
  | (part, place) :: more => do
    let joined := joined ++ (if joined.isEmpty then Text.lowerFirst part else recaseFirst upper part)
    match ← t.mapping? (String.ofList joined) with
    | some f => (nestedPath parts place).map fun nested => some (f.native ++ String.ofList nested)
    | none => search t upper parts joined more

def resolve (t : Table) (upper : Char → List Char) (field : String) : Except OutOfRange String := do
  match ← t.mapping? field with
  | some _ => t.column field
  | none =>
    let parts ← split field.toList
    return (← search t upper parts [] parts.zipIdx).getD field

/-! ### The index -/

theorem ofList_concat (fields : List FieldMapping) (f : FieldMapping) :
    Table.ofList (fields ++ [f]) = (Table.ofList fields).push f := by
  rw [Table.ofList, List.foldl_append]
  rfl

theorem fields_ofList (fields : List FieldMapping) : (Table.ofList fields).fields = fields := by
  induction fields using List.reverseRecOn with
  | nil => rfl
  | append_singleton fields f ih => rw [ofList_concat, Table.push, ih]

/-- The index leads to the last field of each name, and nowhere if there is none. -/
theorem lookup_places (fields : List FieldMapping) (name : String) :
    match (Table.ofList fields).places.lookup name with
    | some place => ∃ f, fields[place]? = some f ∧ lastNamed fields name = some f
    | none => lastNamed fields name = none := by
  induction fields using List.reverseRecOn with
  | nil => rfl
  | append_singleton fields f ih =>
    rw [ofList_concat, Table.push, List.lookup_cons, fields_ofList, lastNamed_concat]
    by_cases hname : f.fieldName = name
    · have hsame : (name == f.fieldName) = true := beq_iff_eq.mpr hname.symm
      rw [if_pos hname, hsame]
      exact ⟨f, List.getElem?_concat_length, rfl⟩
    · have hother : (name == f.fieldName) = false := beq_false_of_ne (Ne.symm hname)
      rw [if_neg hname, hother]
      cases hplace : (Table.ofList fields).places.lookup name with
      | some place =>
        rw [hplace] at ih
        obtain ⟨g, hg, hlast⟩ := ih
        exact ⟨g, (List.getElem?_append_left (List.getElem?_eq_some_iff.mp hg).1).trans hg, hlast⟩
      | none =>
        rw [hplace] at ih
        exact ih

theorem mapping?_ofList (fields : List FieldMapping) (name : String) :
    (Table.ofList fields).mapping? name = .ok (lastNamed fields name) := by
  have hindex := lookup_places fields name
  unfold Table.mapping?
  cases hplace : (Table.ofList fields).places.lookup name with
  | none =>
    rw [hplace] at hindex
    exact congrArg Except.ok hindex.symm
  | some place =>
    rw [hplace] at hindex
    obtain ⟨f, hf, hlast⟩ := hindex
    show (itemAt _ place).map some = _
    rw [itemAt, fields_ofList, hf, hlast]
    rfl

/-! ### The name and its parts -/

/-- A turn behind the first character finds the character in front of it. -/
theorem splitStep_behind {chars done : List Char} {before c : Char} {cs : List Char} (h : chars = done ++ before :: c :: cs)
    (parts : List (List Char)) {part : List Char} (hpart : part ≠ []) :
    splitStep chars (parts, part) (c, done.length + 1) =
      .ok (if isBoundary before c cs.head? then (parts ++ [part], [c]) else (parts, part ++ [c])) := by
  have hbefore : chars[done.length]? = some before := by simp [h]
  have hnext : chars[done.length + 1 + 1]? = cs.head? := by
    rw [h, List.getElem?_append_right (by omega), List.head?_eq_getElem?]
    have hplace : done.length + 1 + 1 - done.length = 2 := by omega
    rw [hplace]
    rfl
  rw [splitStep, if_pos ⟨Nat.succ_pos _, List.isEmpty_eq_false_iff.mpr hpart⟩, itemAt, Nat.add_sub_cancel, hbefore, hnext]
  rfl

theorem splitSteps_behind {chars done cs : List Char} {before : Char} (h : chars = done ++ before :: cs)
    (parts : List (List Char)) {part : List Char} (hpart : part ≠ []) :
    ∃ parts' part', (cs.zipIdx (done.length + 1)).foldlM (splitStep chars) (parts, part) = .ok (parts', part') ∧
      part' ≠ [] ∧ parts' ++ [part'] = parts ++ splitAfter before part.reverse cs := by
  induction cs generalizing done before parts part with
  | nil => exact ⟨parts, part, rfl, hpart, by simp [splitAfter]⟩
  | cons c cs ih =>
    have hnext : chars = (done ++ [before]) ++ c :: cs := by simp [h]
    have hlength : (done ++ [before]).length = done.length + 1 := List.length_append
    rw [List.zipIdx_cons, List.foldlM_cons, splitStep_behind h parts hpart, splitAfter]
    split
    · obtain ⟨parts', part', hrun, hne, hparts⟩ := ih hnext (parts ++ [part]) (List.cons_ne_nil c [])
      rw [hlength] at hrun
      refine ⟨parts', part', hrun, hne, ?_⟩
      rw [hparts, List.reverse_reverse, List.append_assoc]
      rfl
    · obtain ⟨parts', part', hrun, hne, hparts⟩ := ih hnext parts (List.append_ne_nil_of_left_ne_nil hpart [c])
      rw [hlength] at hrun
      refine ⟨parts', part', hrun, hne, ?_⟩
      rw [hparts, List.reverse_concat]

theorem split_eq (chars : List Char) : split chars = .ok (splitCamel chars) := by
  cases chars with
  | nil => rfl
  | cons c cs =>
    obtain ⟨parts, part, hrun, hne, hparts⟩ :=
      splitSteps_behind (show c :: cs = [] ++ c :: cs from rfl) [] (List.cons_ne_nil c [])
    have hfirst : splitStep (c :: cs) ([], []) (c, 0) = .ok ([], [c]) := rfl
    rw [split, List.zipIdx_cons, List.foldlM_cons, hfirst]
    show (((cs.zipIdx (([] : List Char).length + 1)).foldlM (splitStep (c :: cs)) ([], [c])).map _) = _
    rw [hrun]
    show Except.ok (if part.isEmpty then parts else parts ++ [part]) = _
    rw [if_neg (by simpa using hne), hparts]
    rfl

theorem nestedPath_eq (done : List (List Char)) (part : List Char) (more : List (List Char)) :
    nestedPath (done ++ part :: more) done.length = .ok (EntityMapping.nestedPath more) := by
  have hnext : (done ++ part :: more)[done.length + 1]? = more.head? := by
    rw [List.getElem?_append_right (by omega), List.head?_eq_getElem?, Nat.add_sub_cancel_left]
    rfl
  unfold nestedPath
  rw [hnext]
  cases more with
  | nil => rfl
  | cons next more =>
    have hrest : (done ++ part :: next :: more).drop (done.length + 2) = more := by
      rw [List.drop_append]
      simp
    show (itemsFrom _ _).map _ = _
    rw [itemsFrom, if_pos (by simp), hrest]
    rfl

/-- Behind the first part, every part begins with a capital. -/
theorem search_eq (m : EntityMapping) {upper : Char → List Char} (hupper : KeepsCapitals upper)
    (done more : List (List Char)) (joined : List Char) (hmore : ∀ p ∈ more.tail, StartsCapital p)
    (hjoined : joined ≠ [] → ∀ p ∈ more, StartsCapital p) :
    search (Table.ofList m.fields) upper (done ++ more) joined (more.zipIdx done.length) = .ok (m.parentPath? joined more) := by
  induction more generalizing done joined with
  | nil => rfl
  | cons part more ih =>
    have hpart : (if joined.isEmpty then Text.lowerFirst part else recaseFirst upper part) =
        if joined.isEmpty then Text.lowerFirst part else part := by
      split
      · rfl
      · next hne => exact ((hjoined (by simpa using hne)) part List.mem_cons_self).recaseFirst hupper
    rw [List.zipIdx_cons, search, hpart, mapping?_ofList, ← m.mapping?_eq, EntityMapping.parentPath?]
    cases hfound : m.mapping? (String.ofList (joined ++ (if joined.isEmpty then Text.lowerFirst part else part))) with
    | some f =>
      show (nestedPath (done ++ part :: more) done.length).map _ = _
      rw [nestedPath_eq]
      rfl
    | none =>
      have hgo := ih (done ++ [part]) (joined ++ (if joined.isEmpty then Text.lowerFirst part else part))
        (fun p hp => hmore p (List.mem_of_mem_tail hp)) fun _ => hmore
      rw [List.append_assoc, List.length_append] at hgo
      exact hgo

/-- No place that is asked for lies outside its list, and what is found is the native path. -/
theorem resolve_eq (m : EntityMapping) {upper : Char → List Char} (hupper : KeepsCapitals upper) (field : String) :
    resolve (Table.ofList m.fields) upper field = .ok (m.nativeField field) := by
  rw [resolve, mapping?_ofList, ← m.mapping?_eq, EntityMapping.nativeField]
  cases hfound : m.mapping? field with
  | some f =>
    show (Table.ofList m.fields).column field = _
    rw [Table.column, mapping?_ofList, ← m.mapping?_eq, hfound]
    rfl
  | none =>
    have hsearch := search_eq m hupper [] (splitCamel field.toList) [] (fun p hp => capital_of_mem_tail hp)
      fun h => absurd rfl h
    show (split field.toList).bind _ = _
    rw [split_eq]
    exact congrArg (fun found => Except.bind found fun path => .ok (path.getD field)) hsearch

end Indexed

/-- However much a resolver was asked before, it answers with the native name of the last
    field registered under a name; failing that with the native name of the shortest run
    of the name's parts that is a field, and with what is left of the name, its first
    letter lowered, as the nested field; and failing that with the name. A resolver that
    goes by places in lists finds the same and always finds these places, and it does not
    matter that it writes later parts with a capital. -/
theorem native_path (m : EntityMapping) (earlier : List Question) (name : String) :
    let parts := splitCamel name.toList
    let native := (((FieldCache.fresh m).run earlier).2.field name).1
    (∀ f, lastNamed m.fields name = some f → native = f.native) ∧
    (lastNamed m.fields name = none → ∀ i f, 1 ≤ i → i ≤ parts.length →
      lastNamed m.fields (runOf parts i) = some f →
      (∀ j, 1 ≤ j → j < i → lastNamed m.fields (runOf parts j) = none) →
      (i = parts.length → native = f.native) ∧
      ∀ next more, parts.drop i = next :: more →
        native = f.native ++ "." ++ String.ofList (Text.lowerFirst next ++ more.flatten)) ∧
    (lastNamed m.fields name = none →
      (∀ i, 1 ≤ i → i ≤ parts.length → lastNamed m.fields (runOf parts i) = none) → native = name) ∧
    ∀ upper, KeepsCapitals upper → (∀ part ∈ parts.tail, recaseFirst upper part = part) ∧
      Indexed.resolve (.ofList m.fields) upper name = .ok native := by
  intro parts native
  have hnative : native = m.nativeField name := by
    obtain ⟨-, asked, hafter⟩ := FieldCache.run_after m earlier
    show (FieldCache.field _ name).1 = _
    rw [hafter, FieldCache.field_after]
  have hrun : ∀ count, m.mapping? (String.ofList (joinOnto [] (parts.take count))) = lastNamed m.fields (runOf parts count) := by
    intro count
    rw [m.mapping?_eq, runOf_eq fun _ => part_ne_nil]
  have hnested : lastNamed m.fields name = none → m.nativeField name = (m.parentPath? [] parts).getD name := by
    intro hnone
    rw [EntityMapping.nativeField, m.mapping?_eq, hnone]
  rw [hnative]
  refine ⟨fun f hf => ?_, fun hnone i f hi hlength hf hfirst => ?_, fun hnone hall => ?_, fun upper hupper => ⟨?_, ?_⟩⟩
  · rw [EntityMapping.nativeField, m.mapping?_eq, hf]
  · obtain ⟨k, rfl⟩ : ∃ k, i = k + 1 := ⟨i - 1, by omega⟩
    have hpath : m.nativeField name = f.native ++ String.ofList (EntityMapping.nestedPath (parts.drop (k + 1))) := by
      rw [hnested hnone, m.parentPath?_of_first (by omega) ((hrun (k + 1)).trans hf) fun j hj =>
        (hrun (j + 1)).trans (hfirst (j + 1) (by omega) (by omega))]
      rfl
    refine ⟨fun hwhole => ?_, fun next more hmore => ?_⟩
    · rw [hpath, hwhole, List.drop_length]
      exact String.append_empty
    · rw [hpath, hmore, String.append_assoc]
      exact congrArg (f.native ++ ·) (@String.ofList_append ['.'] _)
  · rw [hnested hnone, m.parentPath?_of_none fun k hk => (hrun (k + 1)).trans (hall (k + 1) (by omega) (by omega))]
    rfl
  · exact fun part hpart => (capital_of_mem_tail hpart).recaseFirst hupper
  · exact Indexed.resolve_eq m hupper name

/-- An address that is mapped twice, and one behind a longer run of parts. -/
theorem native_path_address :
    let m : EntityMapping := ⟨"person", "Person",
      [⟨"address", "address", .embedded⟩, ⟨"homeAddress", "home", .embedded⟩, ⟨"address", "addr", .embedded⟩]⟩
    let native name := (((FieldCache.fresh m).run [.field "Person" "addressZIPCode"]).2.field name).1
    lastNamed m.fields "address" = some ⟨"address", "addr", .embedded⟩ ∧ native "address" = "addr" ∧
      lastNamed m.fields (runOf (splitCamel "addressZIPCode".toList) 1) = some ⟨"address", "addr", .embedded⟩ ∧
      native "addressZIPCode" = "addr.zIPCode" ∧
      lastNamed m.fields (runOf (splitCamel "homeAddressCity".toList) 1) = none ∧ native "homeAddressCity" = "home.city" ∧
      native "cityOfBirth" = "cityOfBirth" ∧
      KeepsCapitals (fun c => [c.toUpper]) ∧
      Indexed.resolve (.ofList m.fields) (fun c => [c.toUpper]) "homeAddressCity" = .ok "home.city" := by
  intro m native
  obtain ⟨hdirect, -, -, -⟩ := native_path m [.field "Person" "addressZIPCode"] "address"
  obtain ⟨-, hzip, -, -⟩ := native_path m [.field "Person" "addressZIPCode"] "addressZIPCode"
  obtain ⟨-, hcity, -, hplaces⟩ := native_path m [.field "Person" "addressZIPCode"] "homeAddressCity"
  obtain ⟨-, -, hbirth, -⟩ := native_path m [.field "Person" "addressZIPCode"] "cityOfBirth"
  have haddress : lastNamed m.fields "address" = some ⟨"address", "addr", .embedded⟩ := by decide
  have hrun : lastNamed m.fields (runOf (splitCamel "addressZIPCode".toList) 1) = some ⟨"address", "addr", .embedded⟩ := by
    decide
  have hhome : lastNamed m.fields (runOf (splitCamel "homeAddressCity".toList) 1) = none := by decide
  have hnone : ∀ i, 1 ≤ i → i ≤ (splitCamel "cityOfBirth".toList).length →
      lastNamed m.fields (runOf (splitCamel "cityOfBirth".toList) i) = none := by
    have hall : ∀ i < 4, lastNamed m.fields (runOf (splitCamel "cityOfBirth".toList) i) = none := by decide
    exact fun i _ hlength => hall i (Nat.lt_succ_of_le hlength)
  have hzipPath : native "addressZIPCode" = "addr.zIPCode" :=
    (hzip (by decide) 1 _ (by decide) (by decide) hrun fun j hj hj' => by omega).2 "ZIP".toList ["Code".toList] (by decide)
  have hcityPath : native "homeAddressCity" = "home.city" :=
    (hcity (by decide) 2 ⟨"homeAddress", "home", .embedded⟩ (by decide) (by decide) (by decide) fun j hj hj' => by
      obtain rfl : j = 1 := by omega
      exact hhome).2 "City".toList [] (by decide)
  have hindexed := (hplaces _ keepsCapitals_toUpper).2
  exact ⟨haddress, hdirect _ haddress, hrun, hzipPath, hhome, hcityPath, hbirth (by decide) hnone,
    keepsCapitals_toUpper, hindexed.trans (congrArg Except.ok hcityPath)⟩

end EntityQuery.Naming
