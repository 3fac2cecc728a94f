/-
  EntityQuery.Proofs.Json.RoundTrip — a JSON value as a value and back, and a value as
  JSON and back (`Value.json_round_trips`).

  Values keep the fields of a document in the order of their names, so what comes
  back may have its fields in another order, at any depth, and differs in nothing else
  (`Json.Alike`). It does come back where names differ, whole numbers fit in 64 bits
  and floats are finite (`Json.Regular.alike_toJson`).

  A value comes back as it was, without exception, where it is built from what JSON
  has (`Value.Plain`), since fields that are in their order stay in it
  (`Fields.Ascending.ofList_eq`). What is read from JSON is such a value.
-/

import Mathlib.Data.List.Forall2
import Mathlib.Data.List.Induction
import EntityQuery.Proofs.Json.Reading
import EntityQuery.Value.Json

namespace EntityQuery

namespace Json

/-- The same but for the order of the fields in objects. -/
inductive Alike : Json → Json → Prop where
  | same (v : Json) : Alike v v
  | array {vs ws : List Json} (items_alike : List.Forall₂ Alike vs ws) : Alike (.array vs) (.array ws)
  | object {fs gs hs : List (String × Json)} (names : fs.map (·.1) = gs.map (·.1))
      (values_alike : List.Forall₂ Alike (fs.map (·.2)) (gs.map (·.2))) (reordered : gs.Perm hs) :
      Alike (.object fs) (.object hs)

mutual

/-- Whether every whole number, at any depth, fits in 64 signed bits. -/
def wholesFit : Json → Bool
  | .whole n => Numeral.inInt64 n
  | .array items => itemsFit items
  | .object fields => fieldsFit fields
  | _ => true

def itemsFit : List Json → Bool
  | [] => true
  | v :: vs => wholesFit v && itemsFit vs

def fieldsFit : List (String × Json) → Bool
  | [] => true
  | (_, v) :: fs => wholesFit v && fieldsFit fs

end

theorem itemsFit_iff {items : List Json} : itemsFit items = true ↔ ∀ v ∈ items, v.wholesFit = true := by
  induction items with
  | nil => simp [itemsFit]
  | cons v vs ih => rw [itemsFit, Bool.and_eq_true, ih, List.forall_mem_cons]

theorem fieldsFit_iff {fields : List (String × Json)} : fieldsFit fields = true ↔ ∀ f ∈ fields, f.2.wholesFit = true := by
  induction fields with
  | nil => simp [fieldsFit]
  | cons f fs ih => rw [fieldsFit, Bool.and_eq_true, ih, List.forall_mem_cons]

end Json

/-! ## Fields in the order of their names -/

namespace Fields

theorem insertNew_perm (name : String) (value : Value) (fields : Fields) :
    (insertNew name value fields).Perm ((name, value) :: fields) := by
  induction fields with
  | nil => exact .refl _
  | cons f fs ih =>
    unfold insertNew
    split
    · exact .refl _
    · exact (ih.cons f).trans (.swap ..)

theorem put_perm {fields : Fields} {name : String} (h : name ∉ fields.map (·.1)) (value : Value) :
    (put fields name value).Perm ((name, value) :: fields) := by
  have hnew : fields.any (·.1 == name) = false := by
    refine List.any_eq_false.mpr fun f hf heq => h ?_
    exact beq_iff_eq.mp heq ▸ List.mem_map_of_mem hf
  rw [put, hnew]
  exact insertNew_perm name value fields

/-- Pairs of different names are only reordered. -/
theorem ofList_perm {pairs : List (String × Value)} (h : (pairs.map (·.1)).Nodup) : (ofList pairs).Perm pairs := by
  suffices hfrom : ∀ (pairs : List (String × Value)) (fields : Fields), ((pairs ++ fields).map (·.1)).Nodup →
      (pairs.foldl (fun fields pair => put fields pair.1 pair.2) fields).Perm (pairs ++ fields) by
    have hall := hfrom pairs [] (by rwa [List.append_nil])
    rwa [List.append_nil] at hall
  intro pairs
  induction pairs with
  | nil => exact fun fields _ => .refl _
  | cons pair pairs ih =>
    intro fields hnodup
    obtain ⟨name, value⟩ := pair
    have hnew : name ∉ fields.map (·.1) := fun hin =>
      (List.nodup_cons.mp hnodup).1 (List.map_subset _ (List.subset_append_right pairs fields) hin)
    have hput : (put fields name value).Perm ((name, value) :: fields) := put_perm hnew value
    have hmoved : (pairs ++ put fields name value).Perm ((name, value) :: (pairs ++ fields)) :=
      (hput.append_left pairs).trans List.perm_middle
    exact (ih (put fields name value) ((hmoved.map _).nodup_iff.mpr hnodup)).trans hmoved

/-- The names stand in their order, each once. -/
def Ascending (fields : Fields) : Prop := (fields.map (·.1)).Pairwise (· < ·)

theorem names_replace (name : String) (value : Value) (fields : Fields) :
    (replace name value fields).map (·.1) = fields.map (·.1) := by
  induction fields with
  | nil => rfl
  | cons f fs ih =>
    unfold replace
    split
    · next hf => simp [beq_iff_eq.mp hf]
    · simp [ih]

namespace Ascending

variable {fields : Fields}

theorem insertNew (h : Ascending fields) {name : String} (hnew : name ∉ fields.map (·.1)) (value : Value) :
    Ascending (insertNew name value fields) := by
  induction fields with
  | nil => exact List.pairwise_singleton _ _
  | cons f fs ih =>
    obtain ⟨hf, hfs⟩ := List.pairwise_cons.mp h
    obtain ⟨hne, hnew⟩ := not_or.mp fun hor => hnew (List.mem_cons.mpr hor)
    unfold Fields.insertNew
    split
    · next hlt =>
      refine List.pairwise_cons.mpr ⟨List.forall_mem_cons.mpr ⟨hlt, fun n hn => ?_⟩, h⟩
      exact String.lt_trans hlt (hf n hn)
    · next hnlt =>
      have hgreater : f.1 < name := by
        rcases Std.lt_trichotomy name f.1 with hlt | heq | hgt
        · exact absurd hlt hnlt
        · exact absurd heq hne
        · exact hgt
      refine List.pairwise_cons.mpr ⟨fun n hn => ?_, ih hfs hnew⟩
      rcases List.mem_cons.mp (((insertNew_perm name value fs).map _).mem_iff.mp hn) with rfl | hn
      · exact hgreater
      · exact hf n hn

theorem put (h : Ascending fields) (name : String) (value : Value) : Ascending (put fields name value) := by
  unfold Fields.put
  split
  · rwa [Ascending, names_replace]
  · next hnew =>
    refine h.insertNew (fun hin => hnew ?_) value
    obtain ⟨f, hf, hname⟩ := List.mem_map.mp hin
    exact List.any_eq_true.mpr ⟨f, hf, beq_iff_eq.mpr hname⟩

end Ascending

theorem ofList_concat (pairs : List (String × Value)) (pair : String × Value) :
    ofList (pairs ++ [pair]) = put (ofList pairs) pair.1 pair.2 := by
  rw [ofList, List.foldl_append]
  rfl

theorem ascending_ofList (pairs : List (String × Value)) : Ascending (ofList pairs) := by
  induction pairs using List.reverseRecOn with
  | nil => exact .nil
  | append_singleton pairs pair ih =>
    rw [ofList_concat]
    exact ih.put pair.1 pair.2

/-- A name that is greater than all others comes last. -/
theorem put_greatest {fields : Fields} {name : String} (h : ∀ f ∈ fields, f.1 < name) (value : Value) :
    put fields name value = fields ++ [(name, value)] := by
  have hnew : fields.any (·.1 == name) = false := by
    refine List.any_eq_false.mpr fun f hf heq => String.lt_irrefl name ?_
    exact beq_iff_eq.mp heq ▸ h f hf
  rw [put, hnew, if_neg Bool.false_ne_true]
  induction fields with
  | nil => rfl
  | cons f fs ih =>
    obtain ⟨hf, hfs⟩ := List.forall_mem_cons.mp h
    rw [insertNew, if_neg (String.lt_asymm hf), ih hfs (Bool.or_eq_false_iff.mp hnew).2, List.cons_append]

/-- Fields in their order stay in it. -/
theorem Ascending.ofList_eq {fields : Fields} (h : Ascending fields) : ofList fields = fields := by
  induction fields using List.reverseRecOn with
  | nil => rfl
  | append_singleton fields f ih =>
    rw [Ascending, List.map_append] at h
    obtain ⟨hfields, -, hlast⟩ := List.pairwise_append.mp h
    rw [ofList_concat, ih hfields]
    exact put_greatest (fun g hg => hlast g.1 (List.mem_map_of_mem hg) f.1 (List.mem_singleton.mpr rfl)) f.2

end Fields

namespace Value

theorem ofJsonItems_eq_map (items : List Json) : ofJsonItems items = items.map ofJson := by
  induction items with
  | nil => rfl
  | cons v vs ih => exact congrArg (ofJson v :: ·) ih

theorem ofJsonFields_eq_map (fields : List (String × Json)) :
    ofJsonFields fields = fields.map fun f => (f.1, ofJson f.2) := by
  induction fields with
  | nil => rfl
  | cons f fs ih => exact congrArg ((f.1, ofJson f.2) :: ·) ih

theorem names_ofJsonFields (fields : List (String × Json)) : (ofJsonFields fields).map (·.1) = fields.map (·.1) := by
  rw [ofJsonFields_eq_map, List.map_map]
  rfl

theorem toJsonItems_eq_map (items : List Value) : toJsonItems items = items.map toJson := by
  induction items with
  | nil => rfl
  | cons v vs ih => exact congrArg (toJson v :: ·) ih

theorem toJsonFields_eq_map (fields : List (String × Value)) :
    toJsonFields fields = fields.map fun f => (f.1, toJson f.2) := by
  induction fields with
  | nil => rfl
  | cons f fs ih => exact congrArg ((f.1, toJson f.2) :: ·) ih

theorem toJson_ofWhole {n : Int} (h : Numeral.inInt64 n = true) : (ofWhole n).toJson = .whole n := by
  rw [ofWhole, Numeral.int64?, if_pos h]
  simp only [Numeral.inInt64, Bool.and_eq_true, decide_eq_true_eq] at h
  exact congrArg Json.whole (Int64.toInt_ofInt_of_le h.1 h.2)

end Value

/-- What a text can spell comes back as it was, but for the order of fields. -/
theorem Json.Regular.alike_toJson {v : Json} (h : v.Regular) (hfit : v.wholesFit = true) :
    v.Alike (Value.ofJson v).toJson := by
  induction h with
  | null => exact .same _
  | bool b => exact .same _
  | whole n =>
    show Alike (.whole n) (Value.ofWhole n).toJson
    rw [Value.toJson_ofWhole hfit]
    exact .same _
  | @float x finite =>
    show Alike (.float x) (Value.floatToJson x)
    rw [Value.floatToJson, if_pos finite]
    exact .same _
  | string s => exact .same _
  | @array items _ ih =>
    have hitems := itemsFit_iff.mp hfit
    rw [Value.ofJson, Value.toJson, Value.ofJsonItems_eq_map, Value.toJsonItems_eq_map, List.map_map]
    exact .array (List.forall₂_map_right_iff.mpr (List.forall₂_same.mpr fun v hv => ih v hv (hitems v hv)))
  | @object fields names_differ _ ih =>
    have hfields := fieldsFit_iff.mp hfit
    have hnames : ((Value.ofJsonFields fields).map (·.1)).Nodup := (Value.names_ofJsonFields fields).symm ▸ names_differ
    have hback : Value.toJsonFields (Value.ofJsonFields fields) = fields.map fun f => (f.1, (Value.ofJson f.2).toJson) := by
      rw [Value.ofJsonFields_eq_map, Value.toJsonFields_eq_map, List.map_map]
      rfl
    have hreordered : (Value.toJsonFields (Value.ofJsonFields fields)).Perm
        (Value.toJsonFields (Fields.ofList (Value.ofJsonFields fields))) := by
      rw [Value.toJsonFields_eq_map, Value.toJsonFields_eq_map]
      exact ((Fields.ofList_perm hnames).symm).map _
    rw [hback] at hreordered
    rw [Value.ofJson, Value.toJson]
    refine .object ?_ ?_ hreordered
    · rw [List.map_map]
      rfl
    · rw [List.map_map]
      exact List.forall₂_map_left_iff.mpr (List.forall₂_map_right_iff.mpr
        (List.forall₂_same.mpr fun f hf => ih f hf (hfields f hf)))

/-! ## Values that JSON can spell -/

namespace Value

/-- Built from what JSON has: no decimals, dates or times. Floats are finite, and the
    fields of a document stand in the order of their names. -/
inductive Plain : Value → Prop where
  | null : Plain .null
  | boolean (b : Bool) : Plain (.boolean b)
  | integer (n : Int64) : Plain (.integer n)
  | float {x : Binary64} (finite : x.isFinite = true) : Plain (.float x)
  | string (s : String) : Plain (.string s)
  | array {items : List Value} (items_plain : ∀ v ∈ items, Plain v) : Plain (.array items)
  | object {fields : Fields} (names_ascend : fields.Ascending) (fields_plain : ∀ f ∈ fields, Plain f.2) :
      Plain (.object fields)

theorem ofWhole_toInt (n : Int64) : ofWhole n.toInt = .integer n := by
  have hfits : Numeral.inInt64 n.toInt = true := by
    simp only [Numeral.inInt64, Bool.and_eq_true, decide_eq_true_eq]
    exact ⟨n.le_toInt, n.toInt_lt⟩
  rw [ofWhole, Numeral.int64?, if_pos hfits, Int64.ofInt_toInt]

theorem Plain.ofJson_toJson {v : Value} (h : v.Plain) : ofJson v.toJson = v := by
  induction h with
  | null => rfl
  | boolean b => rfl
  | integer n => exact ofWhole_toInt n
  | float finite => rw [toJson, floatToJson, if_pos finite, ofJson]
  | string s => rfl
  | @array items _ ih =>
    rw [toJson, ofJson, toJsonItems_eq_map, ofJsonItems_eq_map, List.map_map]
    exact congrArg Value.array ((List.map_congr_left ih).trans (List.map_id' items))
  | @object fields names_ascend _ ih =>
    have hfields : fields.map (fun f => (f.1, ofJson (toJson f.2))) = fields :=
      (List.map_congr_left fun f hf => congrArg (f.1, ·) (ih f hf)).trans (List.map_id' fields)
    rw [toJson, ofJson, toJsonFields_eq_map, ofJsonFields_eq_map, List.map_map]
    show Value.object (Fields.ofList (fields.map fun f => (f.1, ofJson (toJson f.2)))) = _
    rw [hfields, names_ascend.ofList_eq]

theorem plain_ofWhole {n : Int} (h : Numeral.inInt64 n = true) : (ofWhole n).Plain := by
  rw [ofWhole, Numeral.int64?, if_pos h]
  exact .integer _

end Value

theorem Json.Regular.plain_ofJson {j : Json} (h : j.Regular) (hfit : j.wholesFit = true) : (Value.ofJson j).Plain := by
  induction h with
  | null => exact .null
  | bool b => exact .boolean b
  | whole n => exact Value.plain_ofWhole hfit
  | float finite => exact .float finite
  | string s => exact .string s
  | @array items _ ih =>
    have hitems := itemsFit_iff.mp hfit
    rw [Value.ofJson, Value.ofJsonItems_eq_map]
    refine .array fun v hv => ?_
    obtain ⟨j, hj, rfl⟩ := List.mem_map.mp hv
    exact ih j hj (hitems j hj)
  | @object fields names_differ _ ih =>
    have hfields := fieldsFit_iff.mp hfit
    have hnames : ((Value.ofJsonFields fields).map (·.1)).Nodup := (Value.names_ofJsonFields fields).symm ▸ names_differ
    refine .object (Fields.ascending_ofList _) fun f hf => ?_
    rw [(Fields.ofList_perm hnames).mem_iff, Value.ofJsonFields_eq_map] at hf
    obtain ⟨g, hg, rfl⟩ := List.mem_map.mp hf
    exact ih g hg (hfields g hg)

/-- A value built from what JSON has comes back from JSON as it was, an integer as an
    integer and a float as a float. What a JSON text can spell with whole numbers of 64
    signed bits is read as such a value, and comes back but for the order of fields. -/
theorem Value.json_round_trips (v : Value) (j : Json) :
    (v.Plain → ofJson v.toJson = v) ∧
    (∀ n x, (Value.integer n).toJson ≠ (Value.float x).toJson) ∧
    (j.Regular → j.wholesFit = true → (ofJson j).Plain ∧ j.Alike (ofJson j).toJson) := by
  refine ⟨Plain.ofJson_toJson, fun n x => ?_, fun h hfit => ⟨h.plain_ofJson hfit, h.alike_toJson hfit⟩⟩
  show Json.whole n.toInt ≠ floatToJson x
  unfold floatToJson
  split <;> exact nofun

/-- One and one point nothing in a list, and fields that are not in their order. -/
theorem Value.json_round_trips_numbers :
    let one : Binary64 := .ofInt 1
    let v : Value := .object [("ages", .array [.integer 1, .float one]), ("name", .null)]
    let j : Json := .object [("name", .null), ("ages", .array [.whole 1, .float one])]
    v.Plain ∧ ofJson v.toJson = v ∧ j.Regular ∧ j.wholesFit = true ∧ ofJson j = v ∧ j.Alike v.toJson := by
  intro one v j
  have hone : one.isFinite = true := by decide
  have hplain : v.Plain := by
    refine .object (show List.Pairwise (· < ·) ["ages", "name"] by decide) ?_
    simp only [List.forall_mem_cons]
    refine ⟨.array ?_, .null, List.forall_mem_nil _⟩
    simp only [List.forall_mem_cons]
    exact ⟨.integer 1, .float hone, List.forall_mem_nil _⟩
  have hregular : j.Regular := by
    refine .object (by decide) ?_
    simp only [List.forall_mem_cons]
    refine ⟨.null, .array ?_, List.forall_mem_nil _⟩
    simp only [List.forall_mem_cons]
    exact ⟨.whole 1, .float hone, List.forall_mem_nil _⟩
  have hfit : j.wholesFit = true := by decide
  have hread : ofJson j = v := by rfl
  obtain ⟨hback, -, hforth⟩ := json_round_trips v j
  exact ⟨hplain, hback hplain, hregular, hfit, hread, hread ▸ (hforth hregular hfit).2⟩

end EntityQuery
