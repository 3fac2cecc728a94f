/-
  EntityQuery.Proofs.Arguments — what the arguments of a call add to a select.

  A prepared select that is given arguments resolves as the select would whose text asks
  for the same (`arguments_equal_text`): the sorts of all arguments follow its own, and
  the window of the last limit, or without one that of the last page request, stands in
  place of its own (`SelectQuery.asking`).

  The text's names are renamed before the arguments are looked at, so the sort fields of
  the arguments are renamed on a way of their own, as fields of the entity that the text
  names and not of the native one.
-/

import EntityQuery.Proofs.Execution

namespace EntityQuery

/-! ## What arguments ask for -/

namespace Argument

/-- The sorts of a page request count, whether or not its page does. -/
def sortKeys : Argument → List SortKey
  | .page r => r.sorts
  | .sort s => [s]
  | .sorts ss => ss
  | .limit _ => []
  | .value _ => []

def page? : Argument → Option PageRequest
  | .page r => some r
  | _ => none

def limit? : Argument → Option Limit
  | .limit l => some l
  | _ => none

end Argument

/-- How many results to skip and how many to take: what the last limit says, or without
    one the last page request. -/
def askedWindow (arguments : List Argument) : Option (Nat × Nat) :=
  match (arguments.filterMap Argument.limit?).getLast? with
  | some l => some (l.start - 1, l.maxResults)
  | none =>
    (arguments.filterMap Argument.page?).getLast?.map fun r => (min ((r.page - 1) * r.size) countLimit, r.size)

/-- The select whose own text asks for what the arguments ask for. -/
def SelectQuery.asking {V : Type} (q : SelectQuery V) (arguments : List Argument) : SelectQuery V :=
  { q with
    sorts := q.sorts ++ arguments.flatMap Argument.sortKeys
    skip := ((askedWindow arguments).map (·.1)).or q.skip
    limit := ((askedWindow arguments).map (·.2)).or q.limit }

/-! ## Collected arguments -/

namespace Paging

theorem getLast?_cons_or {α : Type} (a : α) (as : List α) (o : Option α) :
    (a :: as).getLast?.or o = as.getLast?.or (some a) := by
  rw [List.getLast?_cons, Option.or_some]
  rfl

/-- Sorts add up, and the last page request and the last limit stay. -/
theorem foldl_add (arguments : List Argument) (p : Paging) :
    arguments.foldl add p =
      ⟨(arguments.filterMap Argument.page?).getLast?.or p.page, p.sorts ++ arguments.flatMap Argument.sortKeys,
        (arguments.filterMap Argument.limit?).getLast?.or p.limit⟩ := by
  induction arguments generalizing p with
  | nil => simp
  | cons a arguments ih =>
    rw [List.foldl_cons, ih]
    cases a with
    | page r => simp [add, Argument.page?, Argument.sortKeys, Argument.limit?, getLast?_cons_or]
    | sort s => simp [add, Argument.page?, Argument.sortKeys, Argument.limit?]
    | sorts ss => simp [add, Argument.page?, Argument.sortKeys, Argument.limit?]
    | limit l => simp [add, Argument.page?, Argument.sortKeys, Argument.limit?, getLast?_cons_or]
    | value v => simp [add, Argument.page?, Argument.sortKeys, Argument.limit?]

theorem window?_ofArguments (arguments : List Argument) : (ofArguments arguments).window? = askedWindow arguments := by
  rw [ofArguments, foldl_add]
  simp only [window?, askedWindow, empty, Option.or_none]
  rfl

theorem sorts_ofArguments (arguments : List Argument) :
    (ofArguments arguments).sorts = arguments.flatMap Argument.sortKeys := by
  rw [ofArguments, foldl_add]
  rfl

variable {V : Type}

theorem apply_ofArguments (arguments : List Argument) (field : String → String) (q : SelectQuery V) :
    (ofArguments arguments).apply field q =
      { q with
        sorts := q.sorts ++ (arguments.flatMap Argument.sortKeys).map (·.rename field)
        skip := ((askedWindow arguments).map (·.1)).or q.skip
        limit := ((askedWindow arguments).map (·.2)).or q.limit } := by
  rw [apply, window?_ofArguments, sorts_ofArguments]
  cases askedWindow arguments with
  | none => rfl
  | some w => rfl

end Paging

/-! ## Resolution -/

/-- What a select resolves to, but for its condition, is there before anything is bound. -/
theorem Bindings.resolve_select (b : Bindings) (q : SelectQuery Operand) (naming : Naming) (convert : Converter) :
    b.resolve (.select q) naming convert =
      if b.isAllBound then
        (Query.substituteCondition (naming.field q.entity) (b.resolveOperand convert) q.condition).map fun c =>
          .select ⟨naming.entity q.entity, q.fields.map (naming.field q.entity), c,
            q.sorts.map (·.rename (naming.field q.entity)), q.skip, q.limit⟩
      else .error (.query (.parametersLeft b.unbound)) := by
  rw [resolve]
  by_cases hb : b.isAllBound = true
  · rw [if_pos hb, if_pos hb]
    show Except.bind (Query.substituteCondition (naming.field q.entity) (b.resolveOperand convert) q.condition) _ = _
    cases Query.substituteCondition (naming.field q.entity) (b.resolveOperand convert) q.condition <;> rfl
  · rw [if_neg hb, if_neg hb]
    rfl

theorem Bindings.eq_of_resolve_select {b : Bindings} {q : SelectQuery Operand} {naming : Naming} {convert : Converter}
    {r : Query Value} (h : b.resolve (.select q) naming convert = .ok r) : ∃ c, r =
      .select ⟨naming.entity q.entity, q.fields.map (naming.field q.entity), c,
        q.sorts.map (·.rename (naming.field q.entity)), q.skip, q.limit⟩ := by
  rw [resolve_select] at h
  by_cases hb : b.isAllBound = true
  · rw [if_pos hb] at h
    cases hc : Query.substituteCondition (naming.field q.entity) (b.resolveOperand convert) q.condition with
    | error e => rw [hc] at h; cases h
    | ok c =>
      rw [hc] at h
      exact ⟨c, (Except.ok.inj h).symm⟩
  · rw [if_neg hb] at h
    cases h

/-- Renaming the sorts of a text and those of the arguments apart is renaming them
    together. -/
theorem Bindings.resolve_asking (b : Bindings) (q : SelectQuery Operand) (naming : Naming) (convert : Converter)
    (arguments : List Argument) :
    (b.resolve (.select q) naming convert).map (Query.paged (.select q) naming (.ofArguments arguments)) =
      b.resolve (.select (q.asking arguments)) naming convert := by
  rw [resolve_select, resolve_select]
  by_cases hb : b.isAllBound = true
  · rw [if_pos hb, if_pos hb]
    show Except.map _ (Except.map _ (Query.substituteCondition (naming.field q.entity) (b.resolveOperand convert) _)) =
      Except.map _ (Query.substituteCondition (naming.field q.entity) (b.resolveOperand convert) q.condition)
    cases Query.substituteCondition (naming.field q.entity) (b.resolveOperand convert) q.condition with
    | error e => rfl
    | ok c =>
      show Except.ok (Query.select ((Paging.ofArguments arguments).apply (naming.field q.entity) _)) = _
      rw [Paging.apply_ofArguments, ← List.map_append]
      rfl
  · rw [if_neg hb, if_neg hb]
    rfl

/-- A select that is given arguments resolves as the select that asks for the same in its
    text, and all its names are renamed as those of the entity in the text. -/
theorem arguments_equal_text (q : SelectQuery Operand) (naming : Naming) (convert : Converter)
    (history : List (String × Value)) (arguments : List Argument) :
    let given := (Statement.bound (.select q) naming convert history).withPaging (.ofArguments arguments)
    given.resolve = (Statement.bound (.select (q.asking arguments)) naming convert history).resolve ∧
    ∀ r, given.resolve = .ok r → ∃ c, r = .select
      { entity := naming.entity q.entity
        fields := q.fields.map (naming.field q.entity)
        condition := c
        sorts := (q.sorts ++ arguments.flatMap Argument.sortKeys).map (·.rename (naming.field q.entity))
        skip := ((askedWindow arguments).map (·.1)).or q.skip
        limit := ((askedWindow arguments).map (·.2)).or q.limit } := by
  intro given
  have hgiven : given.resolve =
      ((Bindings.ofQuery (.select q)).bindAll history).resolve (.select (q.asking arguments)) naming convert :=
    Bindings.resolve_asking _ q naming convert arguments
  refine ⟨?_, fun r hr => ?_⟩
  · rw [hgiven, Statement.resolve_bound]
    rfl
  · rw [hgiven] at hr
    exact Bindings.eq_of_resolve_select hr

def byNameText : String := "select * from Person order by name limit 5"

def byName : SelectPhrase where
  selection := .star
  entity := "Person"
  condition := none
  order := some ⟨⟨⟨"name", []⟩, none⟩, []⟩
  skip := none
  limit := some ⟨5, by decide⟩

/-- People under native names, with the fields of their addresses in their own. -/
def nativePeople : Naming := .ofRegistry
  (.ofList [⟨"people", "Person", [⟨"name", "_name", .default⟩, ⟨"address", "addr", .embedded⟩]⟩])

/-- The sort of the first page counts though the second page goes before it. -/
def pagesOfPeople : List Argument :=
  [.sort ⟨"name", .desc⟩, .page ⟨1, 10, [⟨"addressCity", .asc⟩]⟩, .value .null, .page ⟨3, 2, []⟩]

theorem arguments_equal_text_people :
    ∃ prepared r, (Dialect.ofFamily .document).prepare byNameText nativePeople = .ok prepared ∧
      (prepared.withPaging (.ofArguments pagesOfPeople)).resolve = .ok r ∧
      ∃ c, r = .select ⟨"people", [], c, [⟨"_name", .asc⟩, ⟨"_name", .desc⟩, ⟨"addr.city", .asc⟩], some 4, some 2⟩ := by
  have hwritten : (QueryPhrase.select byName).WrittenAs byNameText :=
    QueryPhrase.writtenAs_of_tokens (by decide +kernel)
  have hread : (Dialect.ofFamily .document).read byNameText = .ok (.select byName.query) :=
    Dialect.read_of_writtenAs hwritten rfl
  obtain ⟨htext, hnames⟩ := arguments_equal_text byName.query nativePeople .standard [] pagesOfPeople
  let asking := Query.select (byName.query.asking pagesOfPeople)
  have hasking : ∃ r, (Statement.bound asking nativePeople .standard []).resolve = .ok r := ⟨_, rfl⟩
  obtain ⟨r, hr⟩ := hasking
  obtain ⟨c, hc⟩ := hnames r (htext.trans hr)
  have hsorts : (byName.query.sorts ++ pagesOfPeople.flatMap Argument.sortKeys).map
      (·.rename (nativePeople.field "Person")) = [⟨"_name", .asc⟩, ⟨"_name", .desc⟩, ⟨"addr.city", .asc⟩] := by
    decide +kernel
  refine ⟨_, r, Dialect.prepare_eq_ok.mpr ⟨_, hread, rfl⟩, htext.trans hr, c, hc.trans ?_⟩
  rw [← hsorts]
  rfl

end EntityQuery
