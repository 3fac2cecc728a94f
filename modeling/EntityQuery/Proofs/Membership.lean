/-
  EntityQuery.Proofs.Membership — the three ways to say which values a field may have:
  a list in brackets, a parameter and a JSON literal.

  The first two are one test: a field passes if it loosely equals an item of the list, or
  of the list that the parameter is bound to. A JSON literal stays text on its way to the
  store, so a field passes if it is that very text, whatever the JSON says
  (`membership_forms`); `json_list_is_no_membership` is a list whose items are found by
  the first two and not by the third.
-/

import EntityQuery.Proofs.Execution
import EntityQuery.Proofs.Selection

namespace EntityQuery

/-! ## Tests of one field -/

/-- Every entity of a name whose field is among something. -/
def amongPhrase (entity : String) (field : Chain String) (m : MembersPhrase) : QueryPhrase :=
  .select ⟨.star, entity, some ⟨⟨.comparison ⟨field, .isIn m⟩, []⟩, []⟩, none, none, none⟩

def amongQuery {V : Type} (entity field : String) (v : V) : SelectQuery V :=
  ⟨entity, [], some (.compare field .isIn v), [], none, none⟩

theorem amongPhrase_query (entity : String) (field : Chain String) (m : MembersPhrase) :
    (amongPhrase entity field m).query = .select (amongQuery entity (pathName field) m.operand) := rfl

/-- The entities of a collection whose field loosely equals one of some values, as they
    are stored. -/
def Store.among (s : Store) (entity field : String) (vs : List Value) : List Entity :=
  (s.entities entity).filter fun e => vs.any ((e.read field).looseEq ·)

/-- The values that a value stands for in a test: its items if it is a list. -/
def Value.members : Value → List Value
  | .array items => items
  | v => [v]

theorem Store.select_among (s : Store) (entity field : String) (v : Value) :
    s.select (amongQuery entity field v) = .ok (s.among entity field v.members) := by
  have hholds : ∀ e, Condition.admits (some (.compare field .isIn v)) e = v.members.any ((e.read field).looseEq ·) := by
    intro e
    show Comparison.holds .isIn (e.read field) v = _
    cases v <;> simp [Comparison.holds, Value.members]
  refine select_eq_ok.mpr ⟨.inr fun _ hp => absurd hp List.not_mem_nil, ?_⟩
  show _ = (window none none (SortKey.sort [] (s.matching entity (some (.compare field .isIn v))))).map id
  rw [SortKey.sort_nil, List.map_id, matching, funext hholds]
  rfl

theorem Store.execute_among (s : Store) (entity field : String) (v : Value) :
    manager.execute (.select (amongQuery entity field v)) s = (.ok (s.among entity field v.members), s) := by
  show (s.select _, s) = _
  rw [select_among]

theorem Bindings.resolve_among {b : Bindings} {convert : Converter} {o : Operand} {v : Value} (hb : b.isAllBound = true)
    (ho : b.resolveOperand convert o = .ok v) (naming : Naming) (entity field : String) :
    b.resolve (.select (amongQuery entity field o)) naming convert =
      .ok (.select (amongQuery (naming.entity entity) (naming.field entity field) v)) := by
  rw [resolve, if_pos hb]
  simp only [amongQuery, Query.substitute, Query.substituteCondition, Condition.substitute, substitution, ho]
  rfl

/-! ## The three forms -/

/-- A value that a list can hold in each of the forms. -/
inductive Scalar where
  | string (s : String)
  | integer (n : Int64)
  | boolean (b : Bool)
  | null

namespace Scalar

def value : Scalar → Value
  | string s => .string s
  | integer n => .integer n
  | boolean b => .boolean b
  | null => .null

def phrase : Scalar → ValuePhrase
  | string s => .literal (.string s)
  | integer n => .literal (.integer n)
  | boolean b => .literal (.boolean b)
  | null => .literal .null

def json : Scalar → Json
  | string s => .string s
  | integer n => .whole n.toInt
  | boolean b => .bool b
  | null => .null

theorem resolve_phrase (b : Bindings) (convert : Converter) (x : Scalar) :
    b.resolveOperand convert x.phrase.operand = .ok x.value := by
  cases x <;> rfl

theorem resolve_phrases (b : Bindings) (convert : Converter) (xs : List Scalar) :
    b.resolveItems convert (xs.map fun x => x.phrase.operand) = .ok (xs.map value) := by
  induction xs with
  | nil => rfl
  | cons x xs ih =>
    rw [List.map_cons, Bindings.resolveItems, resolve_phrase, ih]
    rfl

theorem itemParams_phrases (xs : List Scalar) : Operand.itemParams (xs.map fun x => x.phrase.operand) = [] := by
  induction xs with
  | nil => rfl
  | cons x xs ih =>
    have hx : x.phrase.operand.params = [] := by cases x <;> rfl
    rw [List.map_cons, Operand.itemParams, hx, ih, List.nil_append]

end Scalar

variable {d : Dialect} {naming : Naming} {entity : String} {field : Chain String}

/-- A test without parameters, run at once. -/
theorem run_among (hd : d.family.allows .select = true) {m : MembersPhrase} {text : String} {v : Value}
    (ht : (amongPhrase entity field m).WrittenAs text) (hm : m.operand.params = [])
    (hv : ∀ b : Bindings, b.resolveOperand d.convert m.operand = .ok v) (store : Store) :
    d.run text naming Store.manager store =
      (.ok (store.among (naming.entity entity) (naming.field entity (pathName field)) v.members), store) := by
  have hread := Dialect.read_of_writtenAs (d := d) ht hd
  rw [amongPhrase_query] at hread
  have hnone : (Query.select (amongQuery entity (pathName field) m.operand)).parameters = [] := by
    simp [Query.parameters, Query.values, Query.conditionValues, amongQuery, Condition.values, hm, Query.distinct]
  have hbound : (Bindings.ofQuery (.select (amongQuery entity (pathName field) m.operand))).isAllBound = true := by
    simp [Bindings.isAllBound, Bindings.unbound, Bindings.ofQuery, hnone]
  have hresolve : d.resolve text naming =
      .ok (.select (amongQuery (naming.entity entity) (naming.field entity (pathName field)) v)) := by
    rw [Dialect.resolve, hread]
    show (if _ then _ else _) = _
    rw [hnone]
    exact Bindings.resolve_among hbound (hv _) naming entity (pathName field)
  rw [Dialect.run, hresolve]
  exact store.execute_among _ _ v

/-- A list in brackets that holds scalars. -/
def Scalar.listed (items : Chain Scalar) : MembersPhrase := .list ⟨items.head.phrase, items.tail.map phrase⟩

theorem Scalar.listed_operand (items : Chain Scalar) :
    (listed items).operand = .list (items.items.map fun x => x.phrase.operand) := by
  show Operand.list (_ :: (items.tail.map phrase).map ValuePhrase.operand) = _
  rw [List.map_map]
  rfl

theorem run_among_list (hd : d.family.allows .select = true) {items : Chain Scalar} {text : String}
    (ht : (amongPhrase entity field (Scalar.listed items)).WrittenAs text) (store : Store) :
    d.run text naming Store.manager store =
      (.ok (store.among (naming.entity entity) (naming.field entity (pathName field)) (items.items.map Scalar.value)),
        store) := by
  refine run_among (v := .array (items.items.map Scalar.value)) hd ht ?_ (fun b => ?_) store
  · rw [Scalar.listed_operand, Operand.params, Scalar.itemParams_phrases]
  · rw [Scalar.listed_operand, Bindings.resolveOperand, Scalar.resolve_phrases]
    rfl

theorem run_among_json (hd : d.family.allows .select = true) {span : String} {v : Json}
    {reads : Json.parseText span = .ok v} {text : String}
    (ht : (amongPhrase entity field (.one (.literal (.json span v reads)))).WrittenAs text) (store : Store) :
    d.run text naming Store.manager store =
      (.ok (store.among (naming.entity entity) (naming.field entity (pathName field)) [.string v.toText]), store) :=
  run_among hd ht rfl (fun _ => rfl) store

/-- A test against a parameter, prepared and bound. -/
theorem list_among (hd : d.family.allows .select = true) {text name : String}
    (ht : (amongPhrase entity field (.one (.param name))).WrittenAs text) (v : Value) (store : Store) :
    ∃ prepared bound, d.prepare text naming = .ok prepared ∧ prepared.bind name v = .ok bound ∧
      bound.list Store.manager store =
        (.ok (store.among (naming.entity entity) (naming.field entity (pathName field)) v.members), store) := by
  let q : Query Operand := .select (amongQuery entity (pathName field) (.param name))
  let prepared : Statement := .ofQuery q naming d.convert
  let bound : Statement := { prepared with bindings := ⟨[name], [(name, v)]⟩ }
  have hread : d.read text = .ok q := Dialect.read_of_writtenAs ht hd
  refine ⟨prepared, bound, Dialect.prepare_eq_ok.mpr ⟨q, hread, rfl⟩, ?_, ?_⟩
  · have hdeclared : (Bindings.ofQuery q).isDeclared name = true := List.elem_cons_self
    rw [Statement.bind, Bindings.bind]
    show Except.map _ (if (Bindings.ofQuery q).isDeclared name then _ else _) = _
    rw [if_pos hdeclared]
    rfl
  · have hget : bound.bindings.get? name = some v := List.lookup_cons_self
    have hall : bound.bindings.isAllBound = true :=
      (Bindings.isAllBound_iff _).mpr (List.forall_mem_singleton.mpr ⟨v, hget⟩)
    have ho : bound.bindings.resolveOperand d.convert (.param name) = .ok v := by
      rw [Bindings.resolveOperand, hget]
      rfl
    have hresolve : bound.resolve =
        .ok (.select (amongQuery (naming.entity entity) (naming.field entity (pathName field)) v)) := by
      rw [Statement.resolve]
      show (bound.bindings.resolve (.select (amongQuery entity (pathName field) (.param name))) naming d.convert).map _ = _
      rw [Bindings.resolve_among hall ho]
      rfl
    rw [Statement.list, hresolve]
    exact store.execute_among _ _ v

/-- Whatever a field is tested against, a list in brackets and a parameter bound to the
    list let the same entities pass: those whose field loosely equals an item. A JSON
    literal lets those pass whose field is its text. -/
theorem membership_forms (d : Dialect) (hd : d.family.allows .select = true) (naming : Naming) (entity : String)
    (field : Chain String) (items : Chain Scalar) (store : Store) :
    let among := store.among (naming.entity entity) (naming.field entity (pathName field))
    let values := items.items.map Scalar.value
    let list : Json := .array (items.items.map Scalar.json)
    (∀ text, (amongPhrase entity field (Scalar.listed items)).WrittenAs text →
      d.run text naming Store.manager store = (.ok (among values), store)) ∧
    (∀ text name, (amongPhrase entity field (.one (.param name))).WrittenAs text →
      ∃ prepared bound, d.prepare text naming = .ok prepared ∧ prepared.bind name (.array values) = .ok bound ∧
        bound.list Store.manager store = (.ok (among values), store)) ∧
    (∀ text span reads, (amongPhrase entity field (.one (.literal (.json span list reads)))).WrittenAs text →
      d.run text naming Store.manager store = (.ok (among [.string list.toText]), store)) := by
  intro among values list
  exact ⟨fun text ht => run_among_list hd ht store, fun text name ht => list_among hd ht _ store,
    fun text span reads ht => run_among_json hd ht store⟩

/-! ### A list of names -/

def adaAndBob : Chain Scalar := ⟨.string "Ada", [.string "Bob"]⟩

def listText : String := "select * from Person where name in (\"Ada\", \"Bob\")"

def paramText : String := "select * from Person where name in @names"

def spanText : String := "[\"Ada\", \"Bob\"]"

def jsonText : String := "select * from Person where name in " ++ spanText

/-- The items of a list of two texts. -/
def Json.texts? : Json → Option (String × String)
  | .array [.string a, .string b] => some (a, b)
  | _ => none

theorem Json.texts?_eq_some {v : Json} {a b : String} (h : v.texts? = some (a, b)) :
    v = .array [.string a, .string b] := by
  unfold texts? at h
  split at h
  · cases h
    rfl
  · cases h

theorem spanText_reads : Json.parseText spanText = .ok (.array (adaAndBob.items.map Scalar.json)) := by
  have h : (Json.parseText spanText).toOption.bind Json.texts? = some ("Ada", "Bob") := by decide +kernel
  obtain ⟨v, hv, htexts⟩ := Option.bind_eq_some_iff.mp h
  rw [except_toOption_eq_some.mp hv, Json.texts?_eq_some htexts]
  rfl

theorem listText_written : (amongPhrase "Person" ⟨"name", []⟩ (Scalar.listed adaAndBob)).WrittenAs listText :=
  QueryPhrase.writtenAs_of_tokens (by decide +kernel)

theorem paramText_written : (amongPhrase "Person" ⟨"name", []⟩ (.one (.param "names"))).WrittenAs paramText :=
  QueryPhrase.writtenAs_of_tokens (by decide +kernel)

theorem jsonText_written :
    (amongPhrase "Person" ⟨"name", []⟩ (.one (.literal (.json spanText _ spanText_reads)))).WrittenAs jsonText :=
  QueryPhrase.writtenAs_of_tokens (by decide +kernel)

theorem among_adaAndBob : (people.foldl Store.add .empty).among "Person" "name" (adaAndBob.items.map Scalar.value) =
    [person "Bob" (.integer 20), person "Ada" (.integer 36)] := by
  with_unfolding_all rfl

theorem among_jsonText : (people.foldl Store.add .empty).among "Person" "name"
    [.string (Json.array (adaAndBob.items.map Scalar.json)).toText] = [] := by
  with_unfolding_all rfl

theorem membership_forms_people :
    let d := Dialect.ofFamily .document
    let store : Store := people.foldl .add .empty
    let found := [person "Bob" (.integer 20), person "Ada" (.integer 36)]
    d.family.allows .select = true ∧
    d.run listText .identity Store.manager store = (.ok found, store) ∧
    (∃ prepared bound, d.prepare paramText .identity = .ok prepared ∧
      prepared.bind "names" (.array [.string "Ada", .string "Bob"]) = .ok bound ∧
      bound.list Store.manager store = (.ok found, store)) ∧
    d.run jsonText .identity Store.manager store = (.ok [], store) := by
  intro d store found
  have hd : d.family.allows .select = true := rfl
  obtain ⟨hlist, hparam, hjson⟩ := membership_forms d hd .identity "Person" ⟨"name", []⟩ adaAndBob store
  obtain ⟨prepared, bound, hprepare, hbind, hbound⟩ := hparam paramText "names" paramText_written
  have hfound : store.among "Person" "name" (adaAndBob.items.map Scalar.value) = found := among_adaAndBob
  have hnobody : store.among "Person" "name" [.string (Json.array (adaAndBob.items.map Scalar.json)).toText] = [] :=
    among_jsonText
  refine ⟨hd, ?_, ⟨prepared, bound, hprepare, hbind, ?_⟩, ?_⟩
  · exact (hlist listText listText_written).trans (congrArg (fun es => (Except.ok es, store)) hfound)
  · exact hbound.trans (congrArg (fun es => (Except.ok es, store)) hfound)
  · exact (hjson jsonText _ _ jsonText_written).trans (congrArg (fun es => (Except.ok es, store)) hnobody)

/-- A list written as JSON is not the list: it finds nobody. -/
theorem json_list_is_no_membership :
    let d := Dialect.ofFamily .document
    let store : Store := people.foldl .add .empty
    (amongPhrase "Person" ⟨"name", []⟩ (Scalar.listed adaAndBob)).WrittenAs listText ∧
    (amongPhrase "Person" ⟨"name", []⟩ (.one (.literal (.json spanText _ spanText_reads)))).WrittenAs jsonText ∧
    (d.run listText .identity Store.manager store).1 ≠ (d.run jsonText .identity Store.manager store).1 := by
  intro d store
  have hlist : d.run listText .identity Store.manager store = _ := run_among_list rfl listText_written store
  have hjson : d.run jsonText .identity Store.manager store = _ := run_among_json rfl jsonText_written store
  refine ⟨listText_written, jsonText_written, ?_⟩
  rw [hlist, hjson]
  intro h
  have hsame := among_adaAndBob.symm.trans ((Except.ok.inj h).trans among_jsonText)
  cases hsame

end EntityQuery
