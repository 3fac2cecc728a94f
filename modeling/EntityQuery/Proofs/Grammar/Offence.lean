/-
  EntityQuery.Proofs.Grammar.Offence — each parser predicts its kind of phrase, up to
  the parser of a whole operation (`operation_predicts`), and a query fails behind
  tokens that begin one (`query_fails`).

  Every kind of phrase can be finished: a value can be `null`, a name `a`, a count `0`,
  and what stands in brackets can be closed.
-/

import EntityQuery.Proofs.Grammar.Prediction
import EntityQuery.Proofs.Grammar.Text

namespace EntityQuery.Parser

variable {α τ : Type} {s s' : ParserState}

/-! ## Words of phrases -/

theorem completable_spelled {tokens : τ → List TokenKind} (t : τ) (h : ∀ k ∈ tokens t, Spellable k) :
    Completable (spelled tokens) := ⟨tokens t, ⟨t, rfl⟩, h⟩

theorem completable_mark (m : Mark) : Completable {[.mark m]} := ⟨[.mark m], rfl, by simpa using spellable_mark m⟩

theorem completable_keyword (k : Keyword) : Completable {[.keyword k]} :=
  ⟨[.keyword k], rfl, by simpa using spellable_keyword k⟩

theorem completable_name : Completable (spelled fun name : String => [.identifier name]) :=
  completable_spelled "a" (by simpa using spellable_identifier)

theorem completable_path : Completable (spelled pathTokens) :=
  completable_spelled ⟨"a", []⟩ (by simpa [pathTokens, Chain.tokens, Chain.further] using spellable_identifier)

theorem completable_value : Completable (spelled ValuePhrase.tokens) :=
  completable_spelled (.literal .null) (by
    simpa [ValuePhrase.tokens, LiteralPhrase.token] using spellable_keyword .null)

/-! ## Single tokens -/

theorem take_predicts {k : TokenKind} {tokens : τ → List TokenKind} (hs : s.current.kind = k) (t : τ)
    (ht : tokens t = [k]) (hk : k ≠ .endOfInput) (a : α) : Predicts (advance >>= fun _ => pure a) (spelled tokens) s := by
  refine .take hs hk (fun m _ => .pure a m) completable_one ?_
  rintro _ rfl
  exact ⟨t, ht⟩

theorem name_predicts (what : String) (s : ParserState) :
    Predicts (identifier what) (spelled fun name : String => [.identifier name]) s := by
  unfold identifier
  refine .front (fun s₂ hs₂ => by rw [hs₂]) ?_
  split
  · next name hk => exact take_predicts hk name rfl (by simp) name
  · exact .unexpected what completable_name s

theorem completable_count : Completable (spelled fun n : CountPhrase => [.integer n.1]) :=
  completable_spelled ⟨0, by decide⟩ (by simpa using spellable_integer)

theorem count_predicts (k : Keyword) (s : ParserState) :
    Predicts (count k) (spelled fun n : CountPhrase => [.integer n.1]) s := by
  unfold count
  refine .front (fun s₂ hs₂ => by rw [hs₂]) ?_
  split
  · next n hk =>
    split
    · exact .unexpected _ completable_count s
    · next hn => exact take_predicts hk ⟨n, Int.not_lt.mp hn⟩ rfl (by simp) _
  · exact .unexpected _ completable_count s

/-! ## Chains -/

section Chains

variable {β : Type} {item : Parser α} {tokens : τ → List TokenKind}

theorem completable_further (separator : TokenKind) : Completable (spelled (Chain.further separator tokens)) :=
  completable_spelled [] (by simp [Chain.further])

/-- One item, and then what reads further ones. -/
theorem chained_predicts {separator : TokenKind} {rest : α → Parser β} (h : Predicts item (spelled tokens) s)
    (hrest : ∀ a m, Predicts (rest a) (spelled (Chain.further separator tokens)) m) :
    Predicts (item >>= rest) (spelled (Chain.tokens separator tokens)) s := by
  refine (h.bind (fun a m _ => hrest a m) (completable_further separator)).mono ?_
  rintro _ ⟨_, ⟨t, rfl⟩, _, ⟨ts, rfl⟩, rfl⟩
  exact ⟨⟨t, ts⟩, rfl⟩

theorem completable_chain (separator : TokenKind) (hc : Completable (spelled tokens)) :
    Completable (spelled (Chain.tokens separator tokens)) := by
  obtain ⟨_, ⟨t, rfl⟩, ht⟩ := hc
  exact completable_spelled ⟨t, []⟩ (by simpa [Chain.tokens, Chain.further] using ht)

theorem commaList_predicts (h : ∀ s, Predicts item (spelled tokens) s) (hc : Completable (spelled tokens))
    (s : ParserState) : Predicts (commaList item) (spelled (listTokens tokens)) s := by
  have heq : commaList item = item >>= fun a => List.cons a <$> (itemBound >>= fun b =>
      repeated (.mark .comma) item (fun i _ => i) List.cons (fun _ => []) b ()) := by
    simp only [commaList, moreItems_eq, map_eq_pure_bind, bind_assoc]
  rw [heq]
  exact chained_predicts (h s) fun a m => (repeated_predicts (by simp) h hc () m).map _

theorem path_predicts (s : ParserState) : Predicts path (spelled pathTokens) s := by
  have heq : path = identifier "a field name" >>= fun name => (fun rest => ".".intercalate (name :: rest)) <$>
      (itemBound >>= fun b => repeated (.mark .dot) (identifier "a field name after '.'") (fun i _ => i) List.cons
        (fun _ => []) b ()) := by
    simp only [path, moreItems_eq, map_eq_pure_bind, bind_assoc]
  rw [heq]
  exact chained_predicts (name_predicts _ s) fun a m =>
    (repeated_predicts (by simp) (name_predicts _) completable_name () m).map _

theorem connective_predicts {k : Keyword} {join : Condition Operand → Condition Operand → Condition Operand}
    {term : Parser (Condition Operand)} (h : ∀ s, Predicts term (spelled tokens) s) (hc : Completable (spelled tokens))
    (s : ParserState) : Predicts (chain k join term) (spelled (Chain.tokens (.keyword k) tokens)) s := by
  have heq : chain k join term = term >>= fun l => itemBound >>= fun b =>
      repeated (.keyword k) term join (fun _ c => c) id b l := by
    simp only [chain, moreTerms_eq]
  rw [heq]
  exact chained_predicts (h s) fun l m => repeated_predicts (by simp) h hc l m

end Chains

/-! ## Values -/

theorem completable_convertible : Completable (spelled fun c : ConvertiblePhrase => [c.token]) :=
  completable_spelled (.string "") (by simpa [ConvertiblePhrase.token] using spellable_string)

theorem convertible_predicts (s : ParserState) :
    Predicts convertible (spelled fun c : ConvertiblePhrase => [c.token]) s := by
  unfold convertible
  refine .front (fun s₂ hs₂ => by rw [hs₂]) ?_
  split
  · next t hk => exact take_predicts hk (.string t) rfl (by simp) _
  · next n hk => exact take_predicts hk (.integer n) rfl (by simp) _
  · next x hk => exact take_predicts hk (.float x) rfl (by simp) _
  · exact .unexpected _ completable_convertible s

/-- What stands in the brackets of a conversion, and they. -/
def conversionWords : Language TokenKind :=
  {[.mark .lparen]} * ((spelled fun c : ConvertiblePhrase => [c.token]) *
    ({[.mark .comma]} * (spelled pathTokens * {[.mark .rparen]})))

theorem completable_conversion : Completable conversionWords :=
  completable_mul (completable_mark _) <| completable_mul completable_convertible <|
    completable_mul (completable_mark _) <| completable_mul completable_path (completable_mark _)

theorem conversion_predicts (s : ParserState) : Predicts conversion conversionWords s := by
  have hclose := completable_mark .rparen
  have htype := completable_mul completable_path hclose
  have hcomma := completable_mul (completable_mark .comma) htype
  have hliteral := completable_mul completable_convertible hcomma
  refine (Predicts.expectMark .lparen s).bind (fun _ m _ => ?_) hliteral
  refine (convertible_predicts m).bind (fun l m _ => ?_) hcomma
  refine (Predicts.expectMark .comma m).bind (fun _ m _ => ?_) htype
  refine (path_predicts m).bind (fun t m _ => ?_) hclose
  exact (Predicts.expectMark .rparen m).bind_pure _

theorem value_predicts (s : ParserState) : Predicts value (spelled ValuePhrase.tokens) s := by
  by_cases hp : ∃ name, s.current.kind = .param name
  · obtain ⟨name, hk⟩ := hp
    exact (take_predicts hk (.param name) rfl (by simp) (.param name)).of_eq fun s₂ hs₂ => by
      rw [value, get_bind, hs₂, hk]
  by_cases hc : s.current.kind = .keyword .convert
  · refine (Predicts.take hc (by simp) (fun m _ => conversion_predicts m) completable_conversion ?_).of_eq
      fun s₂ hs₂ => by rw [value, get_bind, hs₂, hc]
    rintro _ ⟨_, rfl, _, ⟨_, ⟨c, rfl⟩, _, ⟨_, rfl, _, ⟨_, ⟨t, rfl⟩, _, rfl, rfl⟩, rfl⟩, rfl⟩, rfl⟩
    exact ⟨.convert c t, rfl⟩
  refine Predicts.of_eq ?_ fun s₂ hs₂ =>
    value_of_literal (fun name hk => hp ⟨name, hs₂.symm.trans hk⟩) (fun hk => hc (hs₂.symm.trans hk))
  unfold literal?
  rw [bind_assoc]
  refine .front (fun s₂ hs₂ => by rw [hs₂]) ?_
  cases hk : s.current.kind with
  | string t => rw [pure_bind]; exact take_predicts hk (.literal (.string t)) rfl (by simp) _
  | integer n => rw [pure_bind]; exact take_predicts hk (.literal (.integer n)) rfl (by simp) _
  | float x => rw [pure_bind]; exact take_predicts hk (.literal (.float x)) rfl (by simp) _
  | keyword k =>
    cases k with
    | true => rw [pure_bind]; exact take_predicts hk (.literal (.boolean true)) rfl (by simp) _
    | false => rw [pure_bind]; exact take_predicts hk (.literal (.boolean false)) rfl (by simp) _
    | null => rw [pure_bind]; exact take_predicts hk (.literal .null) rfl (by simp) _
    | _ => rw [pure_bind]; exact .unexpected _ completable_value s
  | json text =>
    dsimp only
    cases hv : Json.parseText text with
    | ok v => rw [pure_bind]; exact take_predicts hk (.literal (.json text v hv)) rfl (by simp) _
    | error reason =>
      rw [← mul_one (spelled ValuePhrase.tokens)]
      exact (Predicts.malformed _ completable_value s).bind (fun a m ha => absurd ha (malformed_ne_ok _ a))
        completable_one
  | _ => rw [pure_bind]; exact .unexpected _ completable_value s

theorem members_predicts (s : ParserState) : Predicts members (spelled MembersPhrase.tokens) s := by
  have hvalues := completable_chain (.mark .comma) completable_value
  have hclose := completable_mark .rparen
  refine .ite_accept (by simp) (fun m _ _ => ?_) (completable_mul hvalues hclose) ?_ fun _ =>
    (value_predicts s).spells .one fun _ => rfl
  · refine (commaList_predicts value_predicts completable_value m).bind (fun vs m _ => ?_) hclose
    exact (Predicts.expectMark .rparen m).bind_pure _
  · rintro _ ⟨_, ⟨vs, rfl⟩, _, rfl, rfl⟩
    exact ⟨.list vs, rfl⟩

theorem completable_members : Completable (spelled MembersPhrase.tokens) := by
  obtain ⟨_, ⟨v, rfl⟩, hv⟩ := completable_value
  exact completable_spelled (.one v) hv

/-! ## Conditions -/

theorem completable_predicate : Completable (spelled PredicatePhrase.tokens) := by
  obtain ⟨_, ⟨v, rfl⟩, hv⟩ := completable_value
  exact completable_spelled (.relation .equals v) (by
    simpa [PredicatePhrase.tokens, Relation.token] using ⟨spellable_mark .eq, hv⟩)

theorem comparison_predicts (s : ParserState) : Predicts comparison (spelled ComparisonPhrase.tokens) s := by
  have hhigh := completable_mul (completable_keyword .and) completable_value
  have hbetween := completable_mul completable_value hhigh
  unfold comparison
  refine ((path_predicts s).bind (fun field m _ => ?_) completable_predicate).mono ?_
  · refine .ite_accept (by simp) (fun l _ _ => (members_predicts l).bind_pure _) completable_members ?_ fun _ => ?_
    · rintro _ ⟨x, rfl⟩
      exact ⟨.isIn x, rfl⟩
    refine .ite_accept (by simp) (fun l _ _ => ?_) hbetween ?_ fun _ => ?_
    · refine (value_predicts l).bind (fun low n _ => ?_) hhigh
      refine (Predicts.expectKeyword .and n).bind (fun _ n _ => ?_) completable_value
      exact (value_predicts n).bind_pure _
    · rintro _ ⟨_, ⟨x, rfl⟩, _, ⟨_, rfl, _, ⟨y, rfl⟩, rfl⟩, rfl⟩
      exact ⟨.between x y, rfl⟩
    refine .front (fun s₂ hs₂ => by rw [hs₂]) ?_
    split
    · next op hop =>
      obtain ⟨r, -, hk⟩ := comparisonOf?_eq_some hop
      refine .take hk (by cases r <;> simp [Relation.token]) (fun l _ => (value_predicts l).bind_pure _)
        completable_value ?_
      rintro _ ⟨v, rfl⟩
      exact ⟨.relation r v, rfl⟩
    · exact .unexpected _ completable_predicate m
  · rintro _ ⟨_, ⟨p, rfl⟩, _, ⟨q, rfl⟩, rfl⟩
    exact ⟨⟨p, q⟩, rfl⟩

theorem completable_comparison : Completable (spelled ComparisonPhrase.tokens) := by
  obtain ⟨_, ⟨p, rfl⟩, hp⟩ := completable_path
  obtain ⟨_, ⟨q, rfl⟩, hq⟩ := completable_predicate
  exact completable_spelled ⟨p, q⟩ (List.forall_mem_append.mpr ⟨hp, hq⟩)

section Disjunction

variable {term : Parser (Condition Operand)} {tokens : τ → List TokenKind}

theorem disjunction_predicts (h : ∀ s, Predicts term (spelled tokens) s) (hc : Completable (spelled tokens))
    (s : ParserState) : Predicts (disjunction term) (spelled (ConditionOf.tokens tokens)) s :=
  connective_predicts (connective_predicts h hc) (completable_chain _ hc) s

theorem completable_disjunction (hc : Completable (spelled tokens)) :
    Completable (spelled (ConditionOf.tokens tokens)) := completable_chain _ (completable_chain _ hc)

end Disjunction

theorem completable_term (levels : Nat) : Completable (spelled (TermPhrase.tokens levels)) := by
  obtain ⟨_, ⟨c, rfl⟩, hc⟩ := completable_comparison
  cases levels with
  | zero => exact completable_spelled (TermOver.comparison c) hc
  | succ levels => exact completable_spelled (TermOver.comparison c) hc

/-- A term that would open one level too many is at fault where it opens it. -/
theorem term_predicts (levels : Nat) (s : ParserState) :
    Predicts (term levels) (spelled (TermPhrase.tokens levels)) s := by
  induction levels generalizing s with
  | zero =>
    have hterm : ∀ s₂ : ParserState, s₂.current.kind = s.current.kind → term 0 s₂ =
        (if (s.current.kind == .keyword .not || s.current.kind == .mark .lparen) = true then
          malformed (.nestedTooDeep maxNesting) else comparison) s₂ := by
      intro s₂ hs₂
      rw [← hs₂]
      rfl
    refine Predicts.of_eq ?_ hterm
    split
    · exact .malformed _ (completable_term 0) s
    · exact (comparison_predicts s).spells TermOver.comparison fun _ => rfl
  | succ levels ih =>
    have hc := completable_term levels
    have hclose := completable_mark .rparen
    refine .ite_accept (by simp) (fun m _ _ => (ih m).bind_pure _) hc ?_ fun _ => ?_
    · rintro _ ⟨t, rfl⟩
      exact ⟨TermOver.not t, rfl⟩
    refine .ite_accept (by simp) (fun m _ _ => ?_) (completable_mul (completable_disjunction hc) hclose) ?_ fun _ =>
      (comparison_predicts s).spells TermOver.comparison fun _ => rfl
    · refine (disjunction_predicts ih hc m).bind (fun c m _ => ?_) hclose
      exact (Predicts.expectMark .rparen m).bind_pure _
    · rintro _ ⟨_, ⟨c, rfl⟩, _, rfl, rfl⟩
      exact ⟨TermOver.group c, rfl⟩

theorem condition_predicts (s : ParserState) : Predicts condition (spelled ConditionPhrase.tokens) s :=
  disjunction_predicts (term_predicts maxNesting) (completable_term maxNesting) s

theorem completable_condition : Completable (spelled ConditionPhrase.tokens) :=
  completable_disjunction (completable_term maxNesting)

/-! ## Clauses -/

section Optional

variable {p : Parser α} {tokens : τ → List TokenKind}

theorem completable_optional : Completable (spelled (optionalTokens tokens)) :=
  completable_spelled none (List.forall_mem_nil _)

/-- A part that may be left out, and starts with a word of its own where it is not. -/
theorem optional_predicts {k : Keyword} (h : ∀ s, Predicts p (spelled tokens) s) (hc : Completable (spelled tokens))
    (s : ParserState) :
    Predicts (acceptKeyword k >>= fun b => if b = true then p >>= fun a => pure (some a) else pure none)
      (spelled (optionalTokens fun t => .keyword k :: tokens t)) s := by
  refine .ite_accept (by simp) (fun m _ _ => (h m).bind_pure _) hc ?_ fun _ => pure_predicts none rfl _ s
  rintro _ ⟨t, rfl⟩
  exact ⟨some t, rfl⟩

end Optional

theorem where_predicts (s : ParserState) : Predicts whereClause (spelled whereTokens) s :=
  optional_predicts condition_predicts completable_condition s

theorem countClause_predicts (k : Keyword) (s : ParserState) : Predicts (countClause k) (spelled (countTokens k)) s :=
  optional_predicts (count_predicts k) completable_count s

theorem sortKey_predicts (s : ParserState) : Predicts sortKey (spelled SortPhrase.tokens) s := by
  have hdirection : Completable (spelled (optionalTokens fun d : Direction => [.keyword d.keyword])) :=
    completable_optional
  refine ((path_predicts s).bind (fun field m _ => ?_) hdirection).mono ?_
  · refine .ite_accept (by simp) (fun l _ _ => .pure _ l) completable_one ?_ fun _ => ?_
    · rintro _ rfl
      exact ⟨some .desc, rfl⟩
    -- the ascending word may stand there, and makes no difference
    have hasc : (acceptKeyword .asc >>= fun _ => pure ⟨field, .asc⟩ : Parser SortKey) =
        acceptKeyword .asc >>= fun b => if b = true then pure ⟨field, .asc⟩ else pure ⟨field, .asc⟩ := by
      simp only [ite_self]
    rw [hasc]
    refine .ite_accept (by simp) (fun l _ _ => .pure _ l) completable_one ?_ fun _ => pure_predicts none rfl _ m
    rintro _ rfl
    exact ⟨some .asc, rfl⟩
  · rintro _ ⟨_, ⟨p, rfl⟩, _, ⟨d, rfl⟩, rfl⟩
    exact ⟨⟨p, d⟩, rfl⟩

theorem order_predicts (s : ParserState) : Predicts orderClause (spelled orderTokens) s := by
  have hkey : Completable (spelled SortPhrase.tokens) := by
    obtain ⟨_, ⟨p, rfl⟩, hp⟩ := completable_path
    exact completable_spelled ⟨p, none⟩ (by simpa [SortPhrase.tokens, optionalTokens] using hp)
  have hkeys := completable_chain (.mark .comma) hkey
  refine .ite_accept (by simp) (fun m _ _ => ?_) (completable_mul (completable_keyword .by) hkeys) ?_ fun _ =>
    pure_predicts none rfl _ s
  · exact (Predicts.expectKeyword .by m).bind (fun _ m _ => commaList_predicts sortKey_predicts hkey m) hkeys
  · rintro _ ⟨_, rfl, _, ⟨keys, rfl⟩, rfl⟩
    exact ⟨some keys, rfl⟩

theorem selection_predicts (s : ParserState) : Predicts selection (spelled SelectionPhrase.tokens) s := by
  refine .ite_accept (by simp) (fun m _ _ => .pure _ m) completable_one ?_ fun _ => ?_
  · rintro _ rfl
    exact ⟨.star, rfl⟩
  exact .ite_isKind (fun _ => pure_predicts .nothing rfl _ s) fun _ =>
    (commaList_predicts path_predicts completable_path s).spells .paths fun _ => rfl

theorem assignment_predicts (s : ParserState) : Predicts assignment (spelled AssignmentPhrase.tokens) s := by
  have hvalue := completable_mul (completable_mark .eq) completable_value
  refine ((path_predicts s).bind (fun field m _ => ?_) hvalue).mono ?_
  · exact (Predicts.expectMark .eq m).bind (fun _ m _ => (value_predicts m).bind_pure _) completable_value
  · rintro _ ⟨_, ⟨p, rfl⟩, _, ⟨_, rfl, _, ⟨v, rfl⟩, rfl⟩, rfl⟩
    exact ⟨⟨p, v⟩, rfl⟩

theorem completable_assignment : Completable (spelled AssignmentPhrase.tokens) := by
  obtain ⟨_, ⟨p, rfl⟩, hp⟩ := completable_path
  obtain ⟨_, ⟨v, rfl⟩, hv⟩ := completable_value
  exact completable_spelled ⟨p, v⟩ (by
    simpa [AssignmentPhrase.tokens, or_imp, forall_and] using ⟨hp, spellable_mark .eq, hv⟩)

/-! ## Operations -/

section Operations

variable {k : Keyword}

theorem keys_predicts (op : Operation) (hk : s.current.kind = .keyword k) :
    Predicts (keys op) (spelled fun c : Chain ValuePhrase => .keyword k :: listTokens ValuePhrase.tokens c) s := by
  refine .take hk (by simp) (fun m _ => ?_) (completable_chain (.mark .comma) completable_value) ?_
  · refine .ite_isKind (fun _ => ?_) fun _ => commaList_predicts value_predicts completable_value m
    exact .queryFault (fun _ => .missingKeys op) m
  · rintro _ ⟨c, rfl⟩
    exact ⟨c, rfl⟩

theorem selectQuery_predicts (hk : s.current.kind = .keyword k) :
    Predicts selectQuery (spelled fun q : SelectPhrase => .keyword k :: q.tokens) s := by
  have hlimit : Completable (spelled (countTokens .limit)) := completable_optional
  have hskip : Completable (spelled (countTokens .skip) * _) := completable_mul completable_optional hlimit
  have horder : Completable (spelled orderTokens * _) := completable_mul completable_optional hskip
  have hwhere : Completable (spelled whereTokens * _) := completable_mul completable_optional horder
  have hentity := completable_mul completable_name hwhere
  have hfrom := completable_mul (completable_keyword .from) hentity
  have hselection : Completable (spelled SelectionPhrase.tokens) := completable_spelled .nothing (List.forall_mem_nil _)
  refine .take hk (by simp) (fun m _ => ?_) (completable_mul hselection hfrom) ?_
  · refine (selection_predicts m).bind (fun fields m _ => ?_) hfrom
    refine (Predicts.expectKeyword .from m).bind (fun _ m _ => ?_) hentity
    refine (name_predicts _ m).bind (fun entity m _ => ?_) hwhere
    refine (where_predicts m).bind (fun c m _ => ?_) horder
    refine (order_predicts m).bind (fun o m _ => ?_) hskip
    refine (countClause_predicts .skip m).bind (fun n m _ => ?_) hlimit
    exact (countClause_predicts .limit m).bind_pure _
  · rintro _ ⟨_, ⟨f, rfl⟩, _, ⟨_, rfl, _, ⟨_, ⟨entity, rfl⟩, _, ⟨_, ⟨c, rfl⟩, _, ⟨_, ⟨o, rfl⟩, _, ⟨_, ⟨n, rfl⟩, _, ⟨l, rfl⟩,
      rfl⟩, rfl⟩, rfl⟩, rfl⟩, rfl⟩, rfl⟩
    exact ⟨⟨f, entity, c, o, n, l⟩, rfl⟩

theorem updateQuery_predicts (hk : s.current.kind = .keyword k) :
    Predicts updateQuery (spelled fun q : UpdatePhrase => .keyword k :: q.tokens) s := by
  have hwhere : Completable (spelled whereTokens) := completable_optional
  have hassignments := completable_mul (completable_chain (.mark .comma) completable_assignment) hwhere
  have hset := completable_mul (completable_keyword .set) hassignments
  refine .take hk (by simp) (fun m _ => ?_) (completable_mul completable_name hset) ?_
  · refine (name_predicts _ m).bind (fun entity m _ => ?_) hset
    refine (Predicts.expectKeyword .set m).bind (fun _ m _ => ?_) hassignments
    refine (commaList_predicts assignment_predicts completable_assignment m).bind (fun set m _ => ?_) hwhere
    exact (where_predicts m).bind_pure _
  · rintro _ ⟨_, ⟨entity, rfl⟩, _, ⟨_, rfl, _, ⟨_, ⟨a, rfl⟩, _, ⟨c, rfl⟩, rfl⟩, rfl⟩, rfl⟩
    exact ⟨⟨entity, a, c⟩, rfl⟩

theorem insertQuery_predicts (hk : s.current.kind = .keyword k) :
    Predicts insertQuery (spelled fun q : InsertPhrase => .keyword k :: q.tokens) s := by
  have hclose := completable_mark .rparen
  have hassignments := completable_mul (completable_chain (.mark .comma) completable_assignment) hclose
  have hopen := completable_mul (completable_mark .lparen) hassignments
  refine .take hk (by simp) (fun m _ => ?_) (completable_mul completable_name hopen) ?_
  · refine (name_predicts _ m).bind (fun entity m _ => ?_) hopen
    refine (Predicts.expectMark .lparen m).bind (fun _ m _ => ?_) hassignments
    refine (commaList_predicts assignment_predicts completable_assignment m).bind (fun items m _ => ?_) hclose
    exact (Predicts.expectMark .rparen m).bind_pure _
  · rintro _ ⟨_, ⟨entity, rfl⟩, _, ⟨_, rfl, _, ⟨_, ⟨a, rfl⟩, _, rfl, rfl⟩, rfl⟩, rfl⟩
    exact ⟨⟨entity, a⟩, rfl⟩

theorem completable_query : Completable (spelled QueryPhrase.tokens) := by
  obtain ⟨_, ⟨v, rfl⟩, hv⟩ := completable_value
  exact completable_spelled (.get ⟨v, []⟩) (by
    simpa [QueryPhrase.tokens, listTokens, Chain.tokens, Chain.further] using ⟨spellable_keyword .get, hv⟩)

/-- An operation is chosen by its keyword, and read as a kind of its own. -/
theorem operation_of_keyword {p : Parser α} {tokens : τ → List TokenKind} (hk : s.current.kind = .keyword k)
    (h : Predicts p (spelled tokens) s) (f : τ → QueryPhrase) (hf : ∀ t, (f t).tokens = tokens t) (g : α → Query Operand)
    (hg : ∀ s₂ : ParserState, s₂.current.kind = .keyword k → operation s₂ = (g <$> p) s₂) :
    Predicts operation (spelled QueryPhrase.tokens) s :=
  ((h.map g).spells f hf).of_eq fun s₂ hs₂ => hg s₂ (hs₂.trans hk)

theorem operation_predicts (s : ParserState) : Predicts operation (spelled QueryPhrase.tokens) s := by
  have hword : Predicts (get >>= fun s => throw (.query (.unknownOperation s.current.lexeme)) : Parser (Query Operand))
      (spelled QueryPhrase.tokens) s := .queryFault .unknownOperation s
  cases hk : s.current.kind with
  | keyword k =>
    cases k with
    | get =>
      exact operation_of_keyword hk (keys_predicts .get hk) .get (fun _ => rfl) .get fun s₂ hs₂ => by
        rw [operation, get_bind, hs₂]
    | delete =>
      exact operation_of_keyword hk (keys_predicts .delete hk) .delete (fun _ => rfl) .delete fun s₂ hs₂ => by
        rw [operation, get_bind, hs₂]
    | select =>
      exact operation_of_keyword hk (selectQuery_predicts hk) .select (fun _ => rfl) .select fun s₂ hs₂ => by
        rw [operation, get_bind, hs₂]
    | update =>
      exact operation_of_keyword hk (updateQuery_predicts hk) .update (fun _ => rfl) .update fun s₂ hs₂ => by
        rw [operation, get_bind, hs₂]
    | insert =>
      exact operation_of_keyword hk (insertQuery_predicts hk) .insert (fun _ => rfl) .insert fun s₂ hs₂ => by
        rw [operation, get_bind, hs₂]
    | _ => exact hword.of_eq fun s₂ hs₂ => by rw [operation, get_bind, get_bind, hs₂, hk]
  | identifier name => exact hword.of_eq fun s₂ hs₂ => by rw [operation, get_bind, get_bind, hs₂, hk]
  | endOfInput =>
    have hnone : Predicts (get >>= fun _ => throw (.query .noOperation) : Parser (Query Operand))
        (spelled QueryPhrase.tokens) s := .queryFault (fun _ => .noOperation) s
    exact hnone.of_eq fun s₂ hs₂ => by rw [operation, get_bind, hs₂, hk]; rfl
  | _ => exact (Predicts.unexpected _ completable_query s).of_eq fun s₂ hs₂ => by rw [operation, get_bind, hs₂, hk]

end Operations

/-! ## Whole texts -/

/-- The tokens taken before the end of input are the first readings. -/
theorem Takes.readings_eq {ks : List TokenKind} {m : ParserState} (hs : Lexed s) (hend : .endOfInput ∉ ks)
    (h : Takes s ks m) : Lexed m ∧ ∃ us : List Token, us.map (·.kind) = ks ∧ readings s = us.map .ok ++ readings m := by
  induction h with
  | none s => exact ⟨hs, [], rfl, rfl⟩
  | @token s m s' ks ha _ ih =>
    simp only [List.mem_cons, not_or] at hend
    obtain ⟨hm, hr⟩ := advance_lexed hs (Ne.symm hend.1) ha
    obtain ⟨hs', us, hus, hrest⟩ := ih hm hend.2
    refine ⟨hs', s.current :: us, by rw [← hus]; rfl, ?_⟩
    rw [hr, hrest]
    rfl

/-- Tokens among the readings can be taken, up to any that comes after them. -/
theorem takes_of_readings {us : List Token} {t : Token} {rest : List Token.Reading} (hs : Lexed s)
    (h : readings s = us.map .ok ++ .ok t :: rest) : ∃ m, Takes s (us.map (·.kind)) m ∧ m.current = t := by
  induction us generalizing s with
  | nil => exact ⟨s, .none s, Except.ok.inj (List.cons.inj h).1⟩
  | cons u us ih =>
    have hne : s.current.kind ≠ .endOfInput := fun hk => by simp [readings, hk] at h
    obtain ⟨hu, hrest⟩ := List.cons.inj ((readings_of_notEnd hne).symm.trans h)
    obtain ⟨more, hmore⟩ := readings_head s.feed
    obtain ⟨m, ha⟩ : ∃ m, advance s = .ok () m := by
      cases hn : s.feed.next with
      | mk r g =>
        cases r with
        | ok v => exact ⟨⟨v, g⟩, by simp [advance, hn]⟩
        | error e =>
          rw [hrest, hn] at hmore
          cases us <;> cases (List.cons.inj hmore).1
    obtain ⟨hm, hr⟩ := advance_lexed hs hne ha
    obtain ⟨n, hn, ht⟩ := ih hm (List.cons.inj (hr.symm.trans h)).2
    refine ⟨n, Takes.cons_iff.mpr ⟨?_, m, ha, hn⟩, ht⟩
    rw [Except.ok.inj hu]

/-- A query fails behind tokens that begin one. The token behind a whole query is at
    fault as well, unless it is the end. -/
theorem query_fails {e : QueryError} {m : ParserState} (hs : Lexed s) (h : query s = .error e m) :
    Fails query (spelled QueryPhrase.tokens) s e m := by
  rcases bind_eq_error.mp h with he | ⟨q, l, hq, he⟩
  · exact ((operation_predicts s).error he).imp (fun _ hb => hb) fun _ _ _ _ _ _ hfail => bind_eq_error.mpr (.inl hfail)
  · obtain ⟨ks, hks, hend, ht, hquery⟩ := (operation_predicts s).ok hq
    have hexpect : ∀ n : ParserState, n.current.kind ≠ .endOfInput →
        (expect .endOfInput >>= fun _ => pure q) n =
          .error (.malformed (.expected TokenKind.endOfInput.describe n.current.kind) n.current.position) n := by
      intro n hn
      refine bind_eq_error.mpr (.inl ?_)
      exact accept_bind_of_ne hn _
    by_cases hl : l.current.kind = .endOfInput
    · obtain ⟨hu, position, hending⟩ := (ht.readings_eq hs hend).1.atEnd hl
      have ha : advance l = .ok () ⟨⟨.endOfInput, "", position⟩, l.feed⟩ := by
        simp only [advance, Token.Feed.next, hu, hending, Token.Ending.reading]
      have hok : (expect .endOfInput >>= fun _ => pure q) l = .ok q _ :=
        bind_eq_ok.mpr ⟨(), _, expect_eq_ok.mpr (Takes.single_iff.mpr ⟨hl, ha⟩), rfl⟩
      rw [hok] at he
      cases he
    · rw [hexpect l hl] at he
      cases he
      refine .offence _ hend ht (begins_of_mem hks) fun s₂ n ht₂ hfront => ?_
      rw [← hfront] at hl
      refine bind_eq_error.mpr (.inr ⟨q, n, hquery s₂ n ht₂ hfront, ?_⟩)
      rw [hexpect n hl, hfront]

end EntityQuery.Parser
