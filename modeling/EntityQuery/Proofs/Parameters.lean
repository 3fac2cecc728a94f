/-
  EntityQuery.Proofs.Parameters — the parameters of a query are the parameter tokens of
  its text (`parameters_eq_tokens`).

  The operands of a query stand in its tree in the order of the text, so the names that
  the operands of a phrase mention are the names among its tokens, repetitions included
  (`QueryPhrase.paramNames_tokens`), one lemma for each kind of phrase.
-/

import EntityQuery.Proofs.Execution
import EntityQuery.Proofs.Truth

namespace EntityQuery

open Token (tokenize)

/-- The name in a parameter token. -/
def TokenKind.paramName? : TokenKind → Option String
  | .param name => some name
  | _ => none

/-- The names in the parameter tokens, in order. -/
def paramNames (ks : List TokenKind) : List String := ks.filterMap TokenKind.paramName?

@[simp] theorem paramNames_nil : paramNames [] = [] := rfl

@[simp] theorem paramNames_append (ks ls : List TokenKind) : paramNames (ks ++ ls) = paramNames ks ++ paramNames ls :=
  List.filterMap_append

theorem paramNames_cons {k : TokenKind} (hk : k.paramName? = none) (ks : List TokenKind) :
    paramNames (k :: ks) = paramNames ks := List.filterMap_cons_none hk

@[simp] theorem paramNames_keyword (k : Keyword) (ks : List TokenKind) :
    paramNames (.keyword k :: ks) = paramNames ks := paramNames_cons rfl ks

@[simp] theorem paramNames_mark (m : Mark) (ks : List TokenKind) : paramNames (.mark m :: ks) = paramNames ks :=
  paramNames_cons rfl ks

@[simp] theorem paramNames_identifier (name : String) (ks : List TokenKind) :
    paramNames (.identifier name :: ks) = paramNames ks := paramNames_cons rfl ks

@[simp] theorem paramNames_endOfInput (ks : List TokenKind) : paramNames (.endOfInput :: ks) = paramNames ks :=
  paramNames_cons rfl ks

theorem mem_paramNames {name : String} {ks : List TokenKind} : name ∈ paramNames ks ↔ .param name ∈ ks := by
  simp only [paramNames, List.mem_filterMap]
  constructor
  · intro ⟨k, hk, hname⟩
    cases k with
    | param n =>
      obtain rfl := Option.some.inj hname
      exact hk
    | _ => cases hname
  · intro h
    exact ⟨_, h, rfl⟩

/-! ## Phrases -/

section Chain

variable {τ : Type} {tokens : τ → List TokenKind} {names : τ → List String}

theorem Chain.paramNames_tokens {separator : TokenKind} (hs : separator.paramName? = none)
    (h : ∀ t, paramNames (tokens t) = names t) (c : Chain τ) :
    paramNames (c.tokens separator tokens) = c.items.flatMap names := by
  obtain ⟨head, tail⟩ := c
  have hfurther : paramNames (Chain.further separator tokens tail) = tail.flatMap names := by
    induction tail with
    | nil => rfl
    | cons t tail ih =>
      show paramNames (separator :: (tokens t ++ Chain.further separator tokens tail)) = _
      rw [paramNames_cons hs, paramNames_append, h, ih, List.flatMap_cons]
  rw [Chain.tokens, paramNames_append, h, hfurther, items, List.flatMap_cons]

theorem paramNames_list (h : ∀ t, paramNames (tokens t) = names t) (c : Chain τ) :
    paramNames (listTokens tokens c) = c.items.flatMap names := c.paramNames_tokens rfl h

end Chain

@[simp] theorem paramNames_path (p : Chain String) : paramNames (pathTokens p) = [] := by
  have hname : ∀ name, paramNames [.identifier name] = (fun _ => []) name := fun _ => rfl
  rw [pathTokens, p.paramNames_tokens rfl hname, List.flatMap_eq_nil_iff]
  exact fun _ _ => rfl

theorem LiteralPhrase.paramName?_token (l : LiteralPhrase) : l.token.paramName? = none := by
  cases l with
  | boolean b => cases b <;> rfl
  | _ => rfl

theorem ConvertiblePhrase.paramName?_token (c : ConvertiblePhrase) : c.token.paramName? = none := by
  cases c <;> rfl

theorem ValuePhrase.paramNames_tokens (v : ValuePhrase) : paramNames v.tokens = v.operand.params := by
  cases v with
  | literal l => simp [tokens, operand, Operand.params, paramNames_cons l.paramName?_token]
  | param name => rfl
  | convert c t => simp [tokens, operand, Operand.params, paramNames_cons c.paramName?_token]

theorem MembersPhrase.paramNames_tokens (m : MembersPhrase) : paramNames m.tokens = m.operand.params := by
  cases m with
  | one v => exact v.paramNames_tokens
  | list vs =>
    simp only [tokens, operand, Operand.params, paramNames_mark, paramNames_append, paramNames_nil, List.append_nil,
      paramNames_list ValuePhrase.paramNames_tokens, Operand.itemParams_eq_flatMap, List.flatMap_map]

/-- The parameters that operands mention, in order. -/
def operandNames (os : List Operand) : List String := os.flatMap Operand.params

@[simp] theorem operandNames_append (os ps : List Operand) : operandNames (os ++ ps) = operandNames os ++ operandNames ps :=
  List.flatMap_append

theorem Relation.paramName?_token (r : Relation) : r.token.paramName? = none := by cases r <;> rfl

theorem ComparisonPhrase.paramNames_tokens (c : ComparisonPhrase) :
    paramNames c.tokens = operandNames c.condition.values := by
  obtain ⟨field, p⟩ := c
  cases p with
  | relation r v =>
    simp [tokens, condition, PredicatePhrase.tokens, PredicatePhrase.condition, Condition.values, operandNames,
      paramNames_cons r.paramName?_token, v.paramNames_tokens]
  | isIn m =>
    simp [tokens, condition, PredicatePhrase.tokens, PredicatePhrase.condition, Condition.values, operandNames,
      m.paramNames_tokens]
  | between low high =>
    simp [tokens, condition, PredicatePhrase.tokens, PredicatePhrase.condition, Condition.values, operandNames,
      low.paramNames_tokens, high.paramNames_tokens]

section Condition

variable {τ : Type} {tokens : τ → List TokenKind} {meaning : τ → Condition Operand}

/-- Joining puts the operands of the items one after the other. -/
theorem Chain.values_joined {join : Condition Operand → Condition Operand → Condition Operand}
    (hj : ∀ l r, (join l r).values = l.values ++ r.values) (c : Chain τ) :
    (c.joined join meaning).values = c.items.flatMap fun t => (meaning t).values := by
  obtain ⟨head, tail⟩ := c
  have hfold : ∀ first, ((tail.map meaning).foldl join first).values =
      first.values ++ tail.flatMap fun t => (meaning t).values := by
    induction tail with
    | nil => simp
    | cons t tail ih =>
      intro first
      rw [List.map_cons, List.foldl_cons, ih, hj, List.flatMap_cons, List.append_assoc]
  exact hfold (meaning head)

theorem Chain.paramNames_joined {k : Keyword} {join : Condition Operand → Condition Operand → Condition Operand}
    (hj : ∀ l r, (join l r).values = l.values ++ r.values)
    (h : ∀ t, paramNames (tokens t) = operandNames (meaning t).values) (c : Chain τ) :
    paramNames (c.tokens (.keyword k) tokens) = operandNames (c.joined join meaning).values := by
  rw [c.paramNames_tokens rfl h, c.values_joined hj, operandNames, List.flatMap_assoc]
  rfl

theorem ConditionOf.paramNames_tokens (h : ∀ t, paramNames (tokens t) = operandNames (meaning t).values)
    (c : ConditionOf τ) : paramNames (c.tokens tokens) = operandNames (c.condition meaning).values :=
  c.paramNames_joined Condition.values_or (Chain.paramNames_joined Condition.values_and h)

theorem TermOver.paramNames_tokens (h : ∀ t, paramNames (tokens t) = operandNames (meaning t).values)
    (t : TermOver τ) : paramNames (t.tokens tokens) = operandNames (t.condition meaning).values := by
  cases t with
  | comparison c => exact c.paramNames_tokens
  | not t => simpa [TermOver.tokens, TermOver.condition, Condition.values] using h t
  | group c => simpa [TermOver.tokens, TermOver.condition] using c.paramNames_tokens h

end Condition

theorem TermPhrase.paramNames_tokens (levels : Nat) (t : TermPhrase levels) :
    paramNames (t.tokens levels) = operandNames (t.condition levels).values := by
  induction levels with
  | zero => exact TermOver.paramNames_tokens (fun t => nomatch t) t
  | succ levels ih => exact TermOver.paramNames_tokens ih t

theorem paramNames_where (c : Option ConditionPhrase) :
    paramNames (whereTokens c) = operandNames (Query.conditionValues (c.map ConditionPhrase.condition)) := by
  cases c with
  | none => rfl
  | some c =>
    show paramNames (.keyword .where :: c.tokens) = operandNames c.condition.values
    rw [paramNames_keyword]
    exact ConditionOf.paramNames_tokens (TermPhrase.paramNames_tokens _) c

theorem AssignmentPhrase.paramNames_tokens (a : AssignmentPhrase) : paramNames a.tokens = a.assignment.value.params := by
  simp [tokens, assignment, a.value.paramNames_tokens]

theorem paramNames_assignments (as : Chain AssignmentPhrase) :
    paramNames (listTokens AssignmentPhrase.tokens as) =
      operandNames ((as.items.map AssignmentPhrase.assignment).map (·.value)) := by
  rw [paramNames_list AssignmentPhrase.paramNames_tokens, operandNames, List.flatMap_map, List.flatMap_map]

theorem paramNames_keys (keys : Chain ValuePhrase) :
    paramNames (listTokens ValuePhrase.tokens keys) = operandNames (keys.items.map ValuePhrase.operand) := by
  rw [paramNames_list ValuePhrase.paramNames_tokens, operandNames, List.flatMap_map]

/-- What a select holds beside its condition mentions no parameter. -/
theorem SelectPhrase.paramNames_tokens (s : SelectPhrase) :
    paramNames s.tokens = operandNames (Query.conditionValues s.query.condition) := by
  have hselection : paramNames s.selection.tokens = [] := by
    cases s.selection with
    | paths ps => simp [SelectionPhrase.tokens, paramNames_list paramNames_path]
    | _ => rfl
  have hsort : ∀ k : SortPhrase, paramNames k.tokens = [] := fun k => by
    cases hd : k.direction <;> simp [SortPhrase.tokens, optionalTokens, hd]
  have horder : paramNames (orderTokens s.order) = [] := by
    cases s.order with
    | none => rfl
    | some keys => simp [orderTokens, optionalTokens, paramNames_list hsort]
  have hcount : ∀ (k : Keyword) (n : Option CountPhrase), paramNames (countTokens k n) = [] := fun k n => by
    cases n <;> rfl
  simp [tokens, clauses, hselection, horder, hcount, paramNames_where, query]

theorem QueryPhrase.paramNames_tokens (p : QueryPhrase) : paramNames p.tokens = operandNames p.query.values := by
  cases p with
  | get keys => simp [tokens, query, Query.values, paramNames_keys]
  | delete keys => simp [tokens, query, Query.values, paramNames_keys]
  | select s => simp [tokens, query, Query.values, s.paramNames_tokens]
  | update u =>
    simp [tokens, query, UpdatePhrase.tokens, UpdatePhrase.query, Query.values, paramNames_assignments, paramNames_where]
  | insert i => simp [tokens, query, InsertPhrase.tokens, InsertPhrase.query, Query.values, paramNames_assignments]

/-! ## Each name once -/

theorem Query.distinct_filter (p : String → Bool) (names : List String) :
    distinct (names.filter p) = (distinct names).filter p := by
  induction names with
  | nil => rfl
  | cons n names ih =>
    by_cases hn : p n = true
    · rw [List.filter_cons_of_pos hn, distinct, ih, distinct, List.filter_cons_of_pos hn, List.filter_filter,
        List.filter_filter]
      simp only [Bool.and_comm]
    · rw [List.filter_cons_of_neg hn, ih, distinct, List.filter_cons_of_neg hn, List.filter_filter]
      refine List.filter_congr fun m _ => ?_
      by_cases hm : m = n
      · simp [hm, hn]
      · simp [hm]

theorem Query.distinct_eq_eraseDups (names : List String) : distinct names = names.eraseDups := by
  induction hn : names.length using Nat.strong_induction_on generalizing names with
  | _ len ih =>
    cases names with
    | nil => rfl
    | cons n names =>
      have hlen : (names.filter (· != n)).length < len := by
        rw [← hn]
        exact Nat.lt_succ_of_le (List.length_filter_le _ _)
      rw [distinct, ← distinct_filter, ih _ hlen _ rfl, List.eraseDups_cons]
      rfl

theorem Query.parameters_isEmpty_iff {q : Query Operand} {ks : List TokenKind}
    (h : q.parameters = (paramNames ks).eraseDups) : q.parameters.isEmpty = true ↔ ∀ name, .param name ∉ ks := by
  rw [h, ← distinct_eq_eraseDups, List.isEmpty_iff, List.eq_nil_iff_forall_not_mem]
  simp only [mem_distinct, mem_paramNames]

/-- The parameters of a phrase's query are those among its tokens. -/
theorem QueryPhrase.parameters_query {p : QueryPhrase} {ts : List Token} (h : p.Derives ts) :
    p.query.parameters = (paramNames (ts.map (·.kind))).eraseDups := by
  rw [h, paramNames_append, p.paramNames_tokens, ← Query.distinct_eq_eraseDups]
  simp [Query.parameters, operandNames]

/-! ## Refusals -/

/-- A text is refused with an error at once, whatever the manager and whatever is to be
    done with the answer, and nothing changes. -/
def Dialect.Refuses (d : Dialect) (text : String) (naming : Naming) (e : QueryError) : Prop :=
  (∀ {σ : Type} (m : Manager σ) (s : σ), d.run text naming m s = (.error e, s)) ∧
    ∀ {σ κ : Type} (m : AsyncManager σ κ) (callback : Callback κ (List Entity)) (states : σ × κ),
      d.runAsync text naming m callback states = (.error e, states)

theorem Dialect.refuses_iff {d : Dialect} {text : String} {naming : Naming} {e : QueryError} :
    d.Refuses text naming e ↔ d.resolve text naming = .error e := by
  constructor
  · intro ⟨h, _⟩
    have hrun := h (σ := Unit) (Manager.answering (.ok [])) ()
    cases hr : d.resolve text naming with
    | error e' =>
      rw [run, hr] at hrun
      exact congrArg (Except.error ·) (Except.error.inj (congrArg Prod.fst hrun))
    | ok q =>
      rw [run, hr] at hrun
      cases q <;> cases hrun
  · intro h
    exact ⟨fun m s => by rw [run, h], fun m callback states => by rw [runAsync, h]⟩

/-- A converter that never asks for a preparation. -/
def Converter.Plain (convert : Converter) : Prop :=
  ∀ v typeName names, convert v typeName ≠ .error (.query (.preparationNeeded names))

theorem Converter.standard_plain : Converter.standard.Plain := by
  intro v typeName names h
  unfold standard at h
  split at h <;> cases h

/-- What is resolved with all parameters bound can fail by a conversion alone. -/
theorem Bindings.resolve_ne_of_plain {convert : Converter} (hc : convert.Plain) {b : Bindings} {q : Query Operand}
    {naming : Naming} (hb : b.isAllBound = true) (hd : b.declared = q.parameters) (names : List String) :
    b.resolve q naming convert ≠ .error (.query (.preparationNeeded names)) := by
  intro h
  have hfail : ¬ ∀ c ∈ q.conversions, ∃ v, convert c.1 c.2 = .ok v := by
    intro hall
    obtain ⟨r, hr⟩ : ∃ r, b.resolve q naming convert = .ok r := (resolve_succeeds_iff convert hd).mpr ⟨hb, hall⟩
    rw [hr] at h
    cases h
  obtain ⟨before, c, after, e, hq, hbefore, he⟩ := exists_first_failure convert hfail
  have hw : b.resolve q naming convert.watched = _ := resolve_of_failure convert hb hd hq hbefore he
  replace hw := congrArg Asking.outcome hw
  rw [resolve_outcome, h] at hw
  obtain rfl := Except.error.inj hw
  exact hc _ _ _ he

theorem Dialect.resolve_of_parse {d : Dialect} {text : String} {q : Query Operand} (h : Query.parse text = .ok q)
    (ha : d.family.allows q.operation = true) (naming : Naming) :
    d.resolve text naming = if q.parameters.isEmpty then (Bindings.ofQuery q).resolve q naming d.convert
      else .error (.query (.preparationNeeded q.parameters)) := by
  obtain ⟨p, hwritten, rfl⟩ := Query.writtenAs_of_parse h
  rw [resolve, read_of_writtenAs hwritten ha]
  rfl

/-- The parameters of a query are the names in the parameter tokens of its text, each
    once, in order of first appearance. A query that its family has is refused for its
    parameters, whatever the manager, exactly when its text has such a token. -/
theorem parameters_eq_tokens {text : String} {q : Query Operand} (h : Query.parse text = .ok q) :
    ∃ ts, tokenize text = .ok ts ∧
      q.parameters = (paramNames (ts.map (·.kind))).eraseDups ∧ q.parameters.Nodup ∧
      ∀ (d : Dialect) (naming : Naming), d.family.allows q.operation = true → d.convert.Plain →
        ((∃ names, d.Refuses text naming (.query (.preparationNeeded names))) ↔
          ∃ t ∈ ts, ∃ name, t.kind = .param name) ∧
        ((∃ t ∈ ts, ∃ name, t.kind = .param name) →
          d.Refuses text naming (.query (.preparationNeeded q.parameters))) := by
  obtain ⟨p, ⟨ts, hts, hderives⟩, rfl⟩ := Query.writtenAs_of_parse h
  have hparams := QueryPhrase.parameters_query hderives
  refine ⟨ts, hts, hparams, Query.nodup_distinct _, ?_⟩
  intro d naming ha hplain
  have hnone : p.query.parameters.isEmpty = true ↔ ¬ ∃ t ∈ ts, ∃ name, t.kind = .param name := by
    rw [Query.parameters_isEmpty_iff hparams]
    simp only [List.mem_map, not_exists, not_and]
    exact ⟨fun hn t ht name hk => hn name t ht hk, fun hn name t ht hk => hn t ht name hk⟩
  have hresolve := Dialect.resolve_of_parse h ha naming
  have hrefuses : (∃ t ∈ ts, ∃ name, t.kind = .param name) →
      d.Refuses text naming (.query (.preparationNeeded p.query.parameters)) := by
    intro hsome
    rw [Dialect.refuses_iff, hresolve, if_neg fun he => hnone.mp he hsome]
  refine ⟨⟨?_, fun hsome => ⟨_, hrefuses hsome⟩⟩, hrefuses⟩
  -- without parameters all is bound, and only a conversion can fail
  intro ⟨names, hnames⟩
  by_contra hsome
  have hempty := hnone.mpr hsome
  rw [Dialect.refuses_iff, hresolve, if_pos hempty] at hnames
  have hbound : (Bindings.ofQuery p.query).isAllBound = true := by
    rw [Bindings.isAllBound_iff]
    simp [Bindings.ofQuery, List.isEmpty_iff.mp hempty]
  exact Bindings.resolve_ne_of_plain hplain hbound rfl names hnames

/-- Keys with two parameters, one of them given twice. -/
theorem parameters_eq_tokens_repeated :
    let text := "delete @b, @a, 7, @b"
    let q : Query Operand := .delete [.param "b", .param "a", .literal (.integer 7), .param "b"]
    let d := Dialect.ofFamily .keyValue
    Query.parse text = .ok q ∧ q.parameters = ["b", "a"] ∧ q.parameters.Nodup ∧
      d.family.allows q.operation = true ∧ d.convert.Plain ∧
      d.Refuses text .identity (.query (.preparationNeeded ["b", "a"])) := by
  intro text q d
  have hwritten : (QueryPhrase.delete ⟨.param "b", [.param "a", .literal (.integer 7), .param "b"]⟩).WrittenAs text :=
    QueryPhrase.writtenAs_of_tokens (by decide +kernel)
  have hparse : Query.parse text = .ok q := Query.parse_of_writtenAs hwritten
  obtain ⟨ts, hts, hparams, hnodup, hrefuses⟩ := parameters_eq_tokens hparse
  obtain ⟨us, hus, hderives⟩ := hwritten
  obtain rfl := Except.ok.inj (hus.symm.trans hts)
  have hparam : ∃ t ∈ us, ∃ name, t.kind = .param name := by
    have hmem : TokenKind.param "b" ∈ us.map (·.kind) := by
      rw [hderives]
      exact List.mem_cons_of_mem _ List.mem_cons_self
    obtain ⟨t, ht, hk⟩ := List.mem_map.mp hmem
    exact ⟨t, ht, _, hk⟩
  exact ⟨hparse, rfl, hnodup, rfl, Converter.standard_plain,
    (hrefuses d .identity rfl Converter.standard_plain).2 hparam⟩

end EntityQuery
