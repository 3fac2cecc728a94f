/-
  EntityQuery.Proofs.Json.Reading — what a JSON text can spell.

  Every object that is read has each of its names once, although a text may repeat
  them, and every float is finite (`Json.Regular`). The readers of lists and objects
  take the reader of their items as an argument, so what holds of the items they are
  given carries over to what they read, and from level to level to every value
  (`Json.regular_of_parseText`).
-/

import Mathlib.Data.List.Nodup
import EntityQuery.Json.Reader
import EntityQuery.Proofs.Json.Numbers

namespace EntityQuery.Json

/-- Names differ in every object, and floats are finite. -/
inductive Regular : Json → Prop where
  | null : Regular .null
  | bool (b : Bool) : Regular (.bool b)
  | whole (n : Int) : Regular (.whole n)
  | float {x : Binary64} (finite : x.isFinite = true) : Regular (.float x)
  | string (s : String) : Regular (.string s)
  | array {items : List Json} (items_regular : ∀ v ∈ items, Regular v) : Regular (.array items)
  | object {fields : List (String × Json)} (names_differ : (fields.map (·.1)).Nodup)
      (fields_regular : ∀ f ∈ fields, Regular f.2) : Regular (.object fields)

namespace Regular

variable {fields : List (String × Json)}

theorem names_differ (h : (Json.object fields).Regular) : (fields.map (·.1)).Nodup := by
  cases h with
  | object names_differ _ => exact names_differ

theorem of_mem_object (h : (Json.object fields).Regular) {name : String} {v : Json} (hv : (name, v) ∈ fields) :
    v.Regular := by
  cases h with
  | object _ fields_regular => exact fields_regular _ hv

end Regular

/-! ## Fields -/

theorem names_setField (fields : List (String × Json)) (name : String) (v : Json) :
    (setField fields name v).map (·.1) =
      if fields.any (·.1 == name) then fields.map (·.1) else fields.map (·.1) ++ [name] := by
  unfold setField
  split
  · rw [List.map_map]
    refine List.map_congr_left fun f _ => ?_
    show (if f.1 == name then (name, v) else f).1 = f.1
    split
    · next hname => exact (beq_iff_eq.mp hname).symm
    · rfl
  · exact List.map_append

theorem mem_setField {fields : List (String × Json)} {name : String} {v : Json} {f : String × Json}
    (h : f ∈ setField fields name v) : f ∈ fields ∨ f = (name, v) := by
  unfold setField at h
  split at h
  · obtain ⟨g, hg, rfl⟩ := List.mem_map.mp h
    split
    · exact .inr rfl
    · exact .inl hg
  · exact (List.mem_append.mp h).imp_right List.mem_singleton.mp

/-- The fields of an object as it is read. -/
def FieldsRegular (fields : List (String × Json)) : Prop :=
  (fields.map (·.1)).Nodup ∧ ∀ f ∈ fields, f.2.Regular

theorem FieldsRegular.setField {fields : List (String × Json)} (h : FieldsRegular fields) (name : String) {v : Json}
    (hv : v.Regular) : FieldsRegular (setField fields name v) := by
  refine ⟨?_, fun f hf => ?_⟩
  · rw [names_setField]
    split
    · exact h.1
    · next hnew =>
      have hfresh : name ∉ fields.map (·.1) := by simpa using hnew
      rw [← List.concat_eq_append]
      exact List.Nodup.concat hfresh h.1
  · rcases mem_setField hf with hold | rfl
    · exact h.2 f hold
    · exact hv

/-! ## Readers -/

theorem ne_of_isDigit {c d : Char} (hc : c.isDigit = true) (hd : d.isDigit = false) : c ≠ d := by
  rintro rfl
  rw [hc] at hd
  cases hd

theorem skipSpace_cons {c : Char} (h : isSpace c = false) (cs : List Char) : skipSpace (c :: cs) = c :: cs := by
  rw [skipSpace, List.dropWhile_cons_of_neg (by simp [h])]

theorem yields_bind {α β : Type} {p : α → Prop} {q : β → Prop} {r : Reading α} {f : α × List Char → Reading β}
    (hr : Yields r p) (hf : ∀ a rest, p a → Yields (f (a, rest)) q) : Yields (r.bind f) q := by
  intro b rest h
  obtain ⟨⟨a, rest'⟩, hra, hfa⟩ := except_bind_eq_ok.mp h
  exact hf a rest' (hr a rest' hra) b rest hfa

theorem yields_map {α β : Type} {p : α → Prop} {q : β → Prop} {r : Reading α} {f : α → β}
    (hr : Yields r p) (hf : ∀ a, p a → q (f a)) : Yields (r.map fun x => (f x.1, x.2)) q := by
  cases r with
  | error e => exact nofun
  | ok a => exact yields_ok (hf a.1 (hr a.1 a.2 rfl))

theorem yields_trivial {α : Type} (r : Reading α) : Yields r fun _ => True := fun _ _ _ => trivial

theorem word_yields {α : Type} {p : α → Prop} {a : α} (h : p a) (ws cs : List Char) : Yields (word a ws cs) p := by
  induction ws generalizing cs with
  | nil => exact yields_ok h
  | cons w ws ih =>
    cases cs with
    | nil => exact yields_fault _ _ _
    | cons c cs => exact yields_ite (fun _ => ih cs) fun _ => yields_fault _ _ _

section Items

variable {item : List Char → Reading Json} {p : Json → Prop} (hitem : ∀ cs, Yields (item cs) p)
include hitem

theorem listTail_yields (fuel : Nat) (first : Bool) (read : List Json) (cs : List Char) (hread : ∀ v ∈ read, p v) :
    Yields (listTail item fuel first read cs) fun items => ∀ v ∈ items, p v := by
  induction fuel generalizing first read cs with
  | zero => exact yields_fault _ _ _
  | succ fuel ih =>
    have hnext : ∀ cs, Yields ((item cs).bind fun x => listTail item fuel false (x.1 :: read) x.2)
        fun items => ∀ v ∈ items, p v := fun cs =>
      yields_bind (hitem cs) fun v rest hv => ih false (v :: read) rest (List.forall_mem_cons.mpr ⟨hv, hread⟩)
    unfold listTail
    dsimp only
    split
    · exact yields_fault _ _ _
    · refine yields_ite (fun _ => yields_ok fun v hv => hread v (List.mem_reverse.mp hv)) fun _ => ?_
      refine yields_ite (fun _ => hnext _) fun _ => yields_ite (fun _ => ?_) fun _ => yields_fault _ _ _
      split
      · exact yields_fault _ _ _
      · exact yields_ite (fun _ => yields_fault _ _ _) fun _ => hnext _

/-- What setting a field keeps holds of the fields that are read. -/
theorem objectTail_yields {I : List (String × Json) → Prop}
    (hset : ∀ fields name v, I fields → p v → I (Json.setField fields name v)) (fuel : Nat) (first : Bool)
    (read : List (String × Json)) (cs : List Char) (hread : I read) :
    Yields (objectTail item fuel first read cs) I := by
  induction fuel generalizing first read cs with
  | zero => exact yields_fault _ _ _
  | succ fuel ih =>
    have hnext : ∀ cs, Yields ((stringTail [] cs).bind fun x => (colon x.2).bind fun y =>
        (item y.2).bind fun z => objectTail item fuel false (setField read x.1 z.1) z.2) I := fun cs =>
      yields_bind (yields_trivial _) fun name _ _ => yields_bind (yields_trivial _) fun _ rest _ =>
        yields_bind (hitem rest) fun v rest hv => ih false (setField read name v) rest (hset read name v hread hv)
    unfold objectTail
    dsimp only
    split
    · exact yields_fault _ _ _
    · refine yields_ite (fun _ => yields_ok hread) fun _ => yields_ite (fun _ => ?_) fun _ =>
        yields_ite (fun _ => ?_) fun _ => yields_fault _ _ _
      · exact yields_ite (fun _ => hnext _) fun _ => yields_fault _ _ _
      · split
        · exact yields_fault _ _ _
        · exact yields_ite (fun _ => hnext _) fun _ =>
            yields_ite (fun _ => yields_fault _ _ _) fun _ => yields_fault _ _ _

end Items

theorem Number.regular_toJson {n : Number} (h : n.IsFinite) : n.toJson.Regular := by
  cases n with
  | whole n => exact .whole n
  | float x => exact .float h

/-- What holds of every value that is neither a list nor an object. -/
structure OfLeaves (p : Json → Prop) : Prop where
  null : p .null
  bool (b : Bool) : p (.bool b)
  number {n : Number} (finite : n.IsFinite) : p n.toJson
  string (s : String) : p (.string s)

/-- What holds of lists and objects if another property holds of what is in them. -/
structure OfNested (q : Json → Prop) (I : List (String × Json) → Prop) (p : Json → Prop) : Prop where
  array {items : List Json} (h : ∀ v ∈ items, q v) : p (.array items)
  empty : I []
  setField (fields : List (String × Json)) (name : String) (v : Json) (h : I fields) (hv : q v) :
    I (Json.setField fields name v)
  object {fields : List (String × Json)} (h : I fields) : p (.object fields)

theorem valueWith_yields {p : Json → Prop} (hleaves : OfLeaves p) {nested? : Option (List Char → Reading Json)}
    (hnested : ∀ item, nested? = some item → ∃ q I, OfNested q I p ∧ ∀ cs, Yields (item cs) q) (cs : List Char) :
    Yields (valueWith nested? cs) p := by
  have hnumber : ∀ negative cs, Yields ((number negative cs).map fun x => (x.1.toJson, x.2)) p :=
    fun negative cs => yields_map (number_finite negative cs) fun _ => hleaves.number
  unfold valueWith
  split
  · exact yields_fault _ _ _
  · refine yields_ite (fun _ => word_yields hleaves.null _ _) fun _ =>
      yields_ite (fun _ => word_yields (hleaves.bool true) _ _) fun _ =>
      yields_ite (fun _ => word_yields (hleaves.bool false) _ _) fun _ => yields_ite (fun _ => hnumber _ _) fun _ =>
      yields_ite (fun _ => hnumber _ _) fun _ => yields_ite (fun _ => ?_) fun _ => yields_ite (fun _ => ?_) fun _ =>
      yields_fault _ _ _
    · exact yields_map (yields_trivial _) fun s _ => hleaves.string s
    · split
      · exact yields_fault _ _ _
      · next item =>
        obtain ⟨q, I, hof, hitem⟩ := hnested item rfl
        refine yields_ite (fun _ => ?_) fun _ => ?_
        · exact yields_map (listTail_yields hitem _ _ _ _ (List.forall_mem_nil _)) fun _ => hof.array
        · exact yields_map (objectTail_yields hitem hof.setField _ _ _ _ hof.empty) fun _ => hof.object

/-- What holds of leaves at every level, and of lists and objects if it holds of what is in
    them one level less, holds of all that is read. -/
theorem value_yields {p : Nat → Json → Prop} {I : Nat → List (String × Json) → Prop} (hleaves : ∀ n, OfLeaves (p n))
    (hnested : ∀ n, OfNested (p n) (I n) (p (n + 1))) (levels : Nat) (cs : List Char) :
    Yields (value levels cs) (p levels) := by
  induction levels generalizing cs with
  | zero =>
    refine valueWith_yields (hleaves 0) (fun item hitem => ?_) cs
    cases hitem
  | succ levels ih =>
    exact valueWith_yields (hleaves _) (fun item hitem => ⟨_, _, hnested levels, Option.some.inj hitem ▸ ih⟩) cs

theorem value_of_parse {text : List Char} {v : Json} (h : parse text = .ok v) :
    ∃ rest, value maxNesting text = .ok (v, rest) ∧ skipSpace rest = [] := by
  obtain ⟨⟨u, rest⟩, hvalue, hend⟩ := except_bind_eq_ok.mp h
  have hended : ended u rest = .ok v := hend
  unfold ended at hended
  split at hended
  · next hrest => exact ⟨rest, Except.ok.inj hended ▸ hvalue, hrest⟩
  · cases hended

theorem parseText_eq_ok {text : String} {v : Json} : parseText text = .ok v ↔ parse text.toList = .ok v := by
  unfold parseText
  cases parse text.toList <;> simp [Except.mapError]

/-- Whatever text is read, names differ in its objects, and its floats are finite. -/
theorem regular_of_parseText {text : String} {v : Json} (h : parseText text = .ok v) : v.Regular := by
  obtain ⟨rest, hvalue, -⟩ := value_of_parse (parseText_eq_ok.mp h)
  have hleaves : OfLeaves Regular := ⟨.null, .bool, Number.regular_toJson, .string⟩
  have hnested : OfNested Regular FieldsRegular Regular :=
    ⟨.array, ⟨.nil, List.forall_mem_nil _⟩, fun _ name _ h hv => h.setField name hv, fun h => .object h.1 h.2⟩
  exact value_yields (fun _ => hleaves) (fun _ => hnested) maxNesting text.toList v rest hvalue

end EntityQuery.Json
