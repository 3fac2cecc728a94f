/-
  EntityQuery.Proofs.Insertion — what is inserted is found by what it was set to.

  (1) The matching select. It tests every field of an insert against its value, joined
  from the left. Bindings, names and conversions make the same of it as of the insert,
  so it resolves when the insert does (`Bindings.resolve_matching`).

  (2) Store. The matching select answers the entities of the collection that have all
  the values (`Store.select_matching`). An entity that is inserted has them, if its
  paths are incomparable and there is no NaN among the values, and it is the last of its
  collection (`Store.select_after_insert`).

  (3) Texts. So a text that inserts is followed by what the text of the matching select
  finds (`insert_then_select`).
-/

import EntityQuery.Proofs.Arguments
import EntityQuery.Proofs.Invariants
import EntityQuery.Proofs.Paths
import EntityQuery.Proofs.Selection

namespace EntityQuery

variable {V W : Type}

/-! ## (1) The matching select -/

/-- The test that a field is what it is set to. -/
def Assignment.test (a : Assignment V) : Condition V := .compare a.field .equals a.value

/-- The tests of all fields, joined from the left. -/
def Assignment.tests : List (Assignment V) → Option (Condition V)
  | [] => none
  | a :: items => some ((items.map test).foldl .and a.test)

/-- Every entity that has what an insert sets. -/
def InsertQuery.matching (q : InsertQuery V) : SelectQuery V := ⟨q.entity, [], Assignment.tests q.items, [], none, none⟩

/-- A conjunction takes further conditions in one after the other. -/
theorem Condition.foldl_and_all (cs ds : List (Condition V)) : cs.foldl and (all ds) = all (ds ++ cs) := by
  induction cs generalizing ds with
  | nil => rw [List.append_nil, List.foldl_nil]
  | cons c cs ih =>
    rw [List.foldl_cons, and, ih, List.append_assoc]
    rfl

namespace Assignment

/-- One test stands for itself, several are one conjunction. -/
theorem tests_cons_cons (a b : Assignment V) (items : List (Assignment V)) :
    tests (a :: b :: items) = some (.all ((a :: b :: items).map test)) :=
  congrArg some (Condition.foldl_and_all (items.map test) [a.test, b.test])

theorem mapItems_test (field : String → String) (f : V → W) (items : List (Assignment V)) :
    Condition.mapItems field f (items.map test) = (items.map (·.map field f)).map test := by
  induction items with
  | nil => rfl
  | cons a items ih =>
    rw [List.map_cons, Condition.mapItems, ih]
    rfl

theorem map_tests (field : String → String) (f : V → W) (items : List (Assignment V)) :
    (tests items).map (·.map field f) = tests (items.map (·.map field f)) := by
  match items with
  | [] => rfl
  | [a] => rfl
  | a :: b :: items =>
    rw [List.map_cons, List.map_cons, tests_cons_cons, tests_cons_cons]
    exact congrArg (some ∘ Condition.all) (mapItems_test field f (a :: b :: items))

theorem itemValues_test (items : List (Assignment V)) :
    Condition.itemValues (items.map test) = items.map (·.value) := by
  induction items with
  | nil => rfl
  | cons a items ih =>
    rw [List.map_cons, Condition.itemValues, ih]
    rfl

theorem values_tests (items : List (Assignment V)) : Query.conditionValues (tests items) = items.map (·.value) := by
  match items with
  | [] => rfl
  | [a] => rfl
  | a :: b :: items =>
    rw [tests_cons_cons]
    exact itemValues_test (a :: b :: items)

end Assignment

namespace Query

theorem map_matching (naming : Naming) (f : V → W) (q : InsertQuery V) : (select q.matching).map naming f =
    .select (InsertQuery.matching ⟨naming.entity q.entity, q.items.map (·.map (naming.field q.entity) f)⟩) := by
  show select ⟨_, _, (Assignment.tests q.items).map _, _, _, _⟩ = _
  rw [Assignment.map_tests]
  rfl

theorem values_matching (q : InsertQuery V) : (select q.matching).values = (insert q).values :=
  Assignment.values_tests q.items

theorem parameters_matching (q : InsertQuery Operand) : (select q.matching).parameters = (insert q).parameters := by
  rw [parameters, values_matching]
  rfl

end Query

/-- The matching select resolves to that of what the insert resolves to. -/
theorem Bindings.resolve_matching {q : InsertQuery Operand} {r : InsertQuery Value} {naming : Naming}
    {convert : Converter} {history : List (String × Value)}
    (h : ((ofQuery (.insert q)).bindAll history).resolve (.insert q) naming convert = .ok (.insert r)) :
    ((ofQuery (.select q.matching)).bindAll history).resolve (.select q.matching) naming convert =
      .ok (.select r.matching) := by
  have hof : ofQuery (.select q.matching) = ofQuery (.insert q) := by rw [ofQuery, Query.parameters_matching, ofQuery]
  rw [hof, resolve]
  rw [resolve] at h
  by_cases hb : ((ofQuery (.insert q)).bindAll history).isAllBound = true
  · rw [if_pos hb] at h ⊢
    -- The operands are the same ones, and the shape of a matching select is that of the insert.
    obtain ⟨hshape, hvalues⟩ := Query.substitute_eq_ok.mp h
    refine Query.substitute_eq_ok.mpr ⟨?_, ?_⟩
    · rw [Query.map_matching, Query.shape, Query.map_matching]
      exact congrArg (fun i : InsertQuery Unit => Query.select i.matching) (Query.insert.inj hshape)
    · rw [Query.values_matching, Query.values_matching, hvalues]
  · rw [if_neg hb] at h
    cases h

/-! ## (2) Store -/

/-- An entity has what fields are set to. -/
def Assignment.allMet (items : List (Assignment Value)) (e : Entity) : Bool :=
  items.all fun a => (e.read a.field).looseEq a.value

namespace Assignment

theorem allHold_test (e : Entity) (items : List (Assignment Value)) :
    Condition.allHold e (items.map test) = allMet items e := by
  induction items with
  | nil => rfl
  | cons a items ih =>
    rw [List.map_cons, Condition.allHold, ih]
    rfl

theorem admits_tests (items : List (Assignment Value)) (e : Entity) :
    Condition.admits (tests items) e = allMet items e := by
  match items with
  | [] => rfl
  | [a] => exact (Bool.and_true _).symm
  | a :: b :: items =>
    rw [tests_cons_cons]
    exact allHold_test e (a :: b :: items)

theorem itemPatterns_test (items : List (Assignment Value)) : Condition.itemPatterns (items.map test) = [] := by
  induction items with
  | nil => rfl
  | cons a items ih =>
    rw [List.map_cons, Condition.itemPatterns, ih]
    rfl

/-- An equality has no pattern. -/
theorem likePatterns_tests (items : List (Assignment Value)) : (tests items).elim [] Condition.likePatterns = [] := by
  match items with
  | [] => rfl
  | [a] => rfl
  | a :: b :: items =>
    rw [tests_cons_cons]
    exact itemPatterns_test (a :: b :: items)

end Assignment

namespace Store

theorem select_matching (s : Store) (r : InsertQuery Value) :
    s.select r.matching = .ok ((s.entities r.entity).filter (Assignment.allMet r.items)) := by
  have hfits : ∀ p ∈ (Assignment.tests r.items).elim [] Condition.likePatterns, Like.Fits p := by
    rw [Assignment.likePatterns_tests]
    exact nofun
  refine select_eq_ok.mpr ⟨.inr hfits, ?_⟩
  show _ = (window none none (SortKey.sort [] (s.matching r.entity (Assignment.tests r.items)))).map id
  rw [SortKey.sort_nil, List.map_id, matching, funext (Assignment.admits_tests r.items)]
  rfl

/-- An entity has what was assigned to it. -/
theorem allMet_assign {items : List (Assignment Value)}
    (hpaths : items.Pairwise fun a b => Entity.Incomparable a.field b.field)
    (hnan : ∀ a ∈ items, a.value.hasNaN = false) (e : Entity) : Assignment.allMet items (assign items e) = true := by
  refine List.all_eq_true.mpr fun a ha => ?_
  have hread : (assign items e).read a.field = a.value := by
    rw [Entity.read, get?_assign hpaths e a ha, Option.getD_some]
  rw [hread]
  exact Value.looseEq_self a.value (hnan a ha)

/-- The matching select finds what was inserted behind all that it found before. -/
theorem select_after_insert (s : Store) {r : InsertQuery Value}
    (hpaths : r.items.Pairwise fun a b => Entity.Incomparable a.field b.field)
    (hnan : ∀ a ∈ r.items, a.value.hasNaN = false) :
    ∃ rows, s.select r.matching = .ok rows ∧ (s.insert r).2.select r.matching = .ok (rows ++ [(s.insert r).1]) := by
  have hname : (s.insert r).1.name = r.entity := assign_name r.items ⟨r.entity, []⟩
  have hmet : Assignment.allMet r.items (s.insert r).1 = true := allMet_assign hpaths hnan ⟨r.entity, []⟩
  refine ⟨_, s.select_matching r, ?_⟩
  rw [select_matching]
  show Except.ok (((s.add (s.insert r).1).entities r.entity).filter (Assignment.allMet r.items)) = _
  rw [entities_add, if_pos hname.symm, List.filter_append, List.filter_cons, hmet, if_pos rfl, List.filter_nil]

end Store

/-! ## (3) Texts -/

/-- The phrase of the test that a field is what it is set to. -/
def AssignmentPhrase.test (a : AssignmentPhrase) : TermPhrase Parser.maxNesting :=
  .comparison ⟨a.field, .relation .equals a.value⟩

/-- The phrase of the select that matches an insert. -/
def InsertPhrase.matching (p : InsertPhrase) : SelectPhrase where
  selection := .star
  entity := p.entity
  condition := some ⟨⟨p.items.head.test, p.items.tail.map AssignmentPhrase.test⟩, []⟩
  order := none
  skip := none
  limit := none

theorem InsertPhrase.matching_query (p : InsertPhrase) : p.matching.query = p.query.matching := by
  have htests : (p.items.tail.map AssignmentPhrase.test).map (TermPhrase.condition Parser.maxNesting) =
      (p.items.tail.map AssignmentPhrase.assignment).map Assignment.test := by
    rw [List.map_map, List.map_map]
    rfl
  show SelectQuery.mk _ [] (some (List.foldl _ _ ((p.items.tail.map AssignmentPhrase.test).map _))) [] none none = _
  rw [htests]
  rfl

theorem Bindings.bindAll_of_declared_nil {b : Bindings} (h : b.declared = []) (history : List (String × Value)) :
    b.bindAll history = b := by
  induction history with
  | nil => rfl
  | cons e history ih =>
    have hsame : b.tryBind e.1 e.2 = b := by
      rw [tryBind, bind, isDeclared, h]
      rfl
    show (b.tryBind e.1 e.2).bindAll history = b
    rw [hsame, ih]

/-- A query without parameters resolves at once as it does when it is prepared. -/
theorem Dialect.resolve_of_read {d : Dialect} {text : String} {q : Query Operand} (hq : d.read text = .ok q)
    (hnone : q.parameters = []) (naming : Naming) (history : List (String × Value)) :
    d.resolve text naming = (Statement.bound q naming d.convert history).resolve := by
  rw [Statement.resolve_bound, Bindings.bindAll_of_declared_nil hnone, resolve, hq]
  show (if q.parameters.isEmpty = true then _ else _) = _
  rw [hnone]
  rfl

/-- What an insert adds is found by the select that asks for what the insert sets. The
    select answers what it answered before and then the new entity, whether both are run
    at once or are prepared and bound alike. -/
theorem insert_then_select (d : Dialect) (hd : d.family = .column ∨ d.family = .document) (p : InsertPhrase)
    (insertText selectText : String) (hinsert : (QueryPhrase.insert p).WrittenAs insertText)
    (hselect : (QueryPhrase.select p.matching).WrittenAs selectText) (naming : Naming)
    (history : List (String × Value)) (r : InsertQuery Value)
    (hr : (Statement.bound (.insert p.query) naming d.convert history).resolve = .ok (.insert r))
    (hpaths : r.items.Pairwise fun a b => Entity.Incomparable a.field b.field)
    (hnan : ∀ a ∈ r.items, a.value.hasNaN = false) (store : Store) :
    let inserting := Statement.bound (.insert p.query) naming d.convert history
    let selecting := Statement.bound (.select p.matching.query) naming d.convert history
    d.prepare insertText naming = .ok (.ofQuery (.insert p.query) naming d.convert) ∧
    d.prepare selectText naming = .ok (.ofQuery (.select p.matching.query) naming d.convert) ∧
    ∃ e rows after,
      inserting.list Store.manager store = (.ok [e], after) ∧
      selecting.list Store.manager store = (.ok rows, store) ∧
      selecting.list Store.manager after = (.ok (rows ++ [e]), after) ∧
      ((Query.insert p.query).parameters = [] →
        d.run insertText naming Store.manager store = (.ok [e], after) ∧
        d.run selectText naming Store.manager store = (.ok rows, store) ∧
        d.run selectText naming Store.manager after = (.ok (rows ++ [e]), after)) := by
  intro inserting selecting
  have hallowed : d.family.allows .insert = true ∧ d.family.allows .select = true := by
    rcases hd with hfamily | hfamily <;> rw [hfamily] <;> exact ⟨rfl, rfl⟩
  have hreadInsert : d.read insertText = .ok (.insert p.query) := Dialect.read_of_writtenAs hinsert hallowed.1
  have hreadSelect : d.read selectText = .ok (.select p.matching.query) := Dialect.read_of_writtenAs hselect hallowed.2
  have hselecting : selecting.resolve = .ok (.select r.matching) := by
    rw [Statement.resolve_bound] at hr
    show (Statement.bound (.select p.matching.query) naming d.convert history).resolve = _
    rw [Statement.resolve_bound, InsertPhrase.matching_query]
    exact Bindings.resolve_matching hr
  have hfound : ∀ s found, s.select r.matching = .ok found → selecting.list Store.manager s = (.ok found, s) ∧
      ((Query.insert p.query).parameters = [] → d.run selectText naming Store.manager s = (.ok found, s)) := by
    intro s found hs
    have hexecute : Store.manager.execute (.select r.matching) s = (.ok found, s) := congrArg (·, s) hs
    refine ⟨?_, fun hnone => ?_⟩
    · rw [Statement.list, hselecting]
      exact hexecute
    · have hnone' : (Query.select p.matching.query).parameters = [] := by
        rw [InsertPhrase.matching_query, Query.parameters_matching, hnone]
      rw [Dialect.run, Dialect.resolve_of_read hreadSelect hnone' naming history, hselecting]
      exact hexecute
  obtain ⟨rows, hbefore, hafter⟩ := store.select_after_insert hpaths hnan
  obtain ⟨hlistBefore, hrunBefore⟩ := hfound store rows hbefore
  obtain ⟨hlistAfter, hrunAfter⟩ := hfound _ _ hafter
  refine ⟨Dialect.prepare_eq_ok.mpr ⟨_, hreadInsert, rfl⟩, Dialect.prepare_eq_ok.mpr ⟨_, hreadSelect, rfl⟩,
    (store.insert r).1, rows, (store.insert r).2, ?_, hlistBefore, hlistAfter,
    fun hnone => ⟨?_, hrunBefore hnone, hrunAfter hnone⟩⟩
  · rw [Statement.list, hr]
    rfl
  · rw [Dialect.run, Dialect.resolve_of_read hreadInsert hnone naming history, hr]
    rfl

def eveText : String := "insert Person (name = \"Eve\", age = @age, addressCity = \"Rome\")"

def findEveText : String := "select * from Person where name = \"Eve\" and age = @age and addressCity = \"Rome\""

def evePhrase : InsertPhrase where
  entity := "Person"
  items := ⟨⟨⟨"name", []⟩, .literal (.string "Eve")⟩, [⟨⟨"age", []⟩, .param "age"⟩,
    ⟨⟨"addressCity", []⟩, .literal (.string "Rome")⟩]⟩

/-- Eve of some age, as she is stored. -/
def eve (age : Value) : Entity :=
  ⟨"people", [("_name", .string "Eve"), ("addr", .object [("city", .string "Rome")]), ("age", age)]⟩

/-- One who is there has the same age in another kind of number, and one has none. -/
theorem insert_then_select_eve :
    let d := Dialect.ofFamily .document
    let store : Store := [eve (.float (.ofInt 29)), eve .null].foldl .add .empty
    let bound (q : Query Operand) : Statement := .bound q nativePeople d.convert [("age", .integer 29)]
    let selecting := bound (.select evePhrase.matching.query)
    d.prepare eveText nativePeople = .ok (.ofQuery (.insert evePhrase.query) nativePeople d.convert) ∧
    d.prepare findEveText nativePeople = .ok (.ofQuery (.select evePhrase.matching.query) nativePeople d.convert) ∧
    ∃ e after, (bound (.insert evePhrase.query)).list Store.manager store = (.ok [e], after) ∧
      selecting.list Store.manager store = (.ok [eve (.float (.ofInt 29))], store) ∧
      selecting.list Store.manager after = (.ok [eve (.float (.ofInt 29)), e], after) := by
  intro d store bound selecting
  have hinsert : (QueryPhrase.insert evePhrase).WrittenAs eveText := QueryPhrase.writtenAs_of_tokens (by decide +kernel)
  have hselect : (QueryPhrase.select evePhrase.matching).WrittenAs findEveText :=
    QueryPhrase.writtenAs_of_tokens (by decide +kernel)
  let field := nativePeople.field "Person"
  let r : InsertQuery Value := ⟨nativePeople.entity "Person",
    [⟨field "name", .string "Eve"⟩, ⟨field "age", .integer 29⟩, ⟨field "addressCity", .string "Rome"⟩]⟩
  have hr : (bound (.insert evePhrase.query)).resolve = .ok (.insert r) := rfl
  have hpaths : r.items.Pairwise fun a b => Entity.Incomparable a.field b.field := by decide +kernel
  have hnan : ∀ a ∈ r.items, a.value.hasNaN = false := by decide +kernel
  obtain ⟨hprepareInsert, hprepareSelect, e, rows, after, hinserted, hbefore, hafter, -⟩ :=
    insert_then_select d (.inr rfl) evePhrase eveText findEveText hinsert hselect nativePeople [("age", .integer 29)] r hr
      hpaths hnan store
  have hrows : selecting.list Store.manager store = (.ok [eve (.float (.ofInt 29))], store) := by
    have hresolve : selecting.resolve = .ok (.select r.matching) := rfl
    have hentity : r.entity = "people" := by decide +kernel
    have hpeople : store.entities "people" = [eve (.float (.ofInt 29)), eve .null] := rfl
    have hmet : Assignment.allMet r.items (eve (.float (.ofInt 29))) = true := by decide +kernel
    have hnot : Assignment.allMet r.items (eve .null) = false := by decide +kernel
    rw [Statement.list, hresolve]
    show (store.select r.matching, store) = _
    rw [Store.select_matching, hentity, hpeople, List.filter_cons, hmet, if_pos rfl, List.filter_cons, hnot,
      if_neg Bool.false_ne_true, List.filter_nil]
  obtain rfl : [eve (.float (.ofInt 29))] = rows := Except.ok.inj (Prod.mk.inj (hrows.symm.trans hbefore)).1
  exact ⟨hprepareInsert, hprepareSelect, e, after, hinserted, hrows, hafter⟩

end EntityQuery
