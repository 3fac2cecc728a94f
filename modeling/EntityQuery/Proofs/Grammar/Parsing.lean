/-
  EntityQuery.Proofs.Grammar.Parsing — each parser reads its kind of phrase, up to the
  parser of a whole operation (`operation_reads`).

  A term is read with as many levels as may still be opened, so terms are read by
  induction on the levels, and the parser of a condition inside brackets is that of
  the level below.
-/

import EntityQuery.Proofs.Grammar.Reading
import EntityQuery.Proofs.Grammar.Unambiguous

namespace EntityQuery.Parser

variable {s s' : ParserState}

/-! ## Values -/

theorem literal?_of_token (l : LiteralPhrase) (hk : s.current.kind = l.token) :
    literal? s = .ok (some l.literal) s := by
  rw [literal?, get_bind, hk]
  cases l with
  | boolean b => cases b <;> rfl
  | json text v hv =>
    simp only [LiteralPhrase.token, hv]
    rfl
  | _ => rfl

theorem literal?_eq_some {l : Literal} (hp : literal? s = .ok (some l) s') :
    s = s' ∧ ∃ p : LiteralPhrase, p.literal = l ∧ s.current.kind = p.token := by
  rw [literal?, get_bind] at hp
  cases hk : s.current.kind with
  | string t => rw [hk] at hp; cases hp; exact ⟨rfl, .string t, rfl, rfl⟩
  | integer n => rw [hk] at hp; cases hp; exact ⟨rfl, .integer n, rfl, rfl⟩
  | float x => rw [hk] at hp; cases hp; exact ⟨rfl, .float x, rfl, rfl⟩
  | json text =>
    rw [hk] at hp
    simp only at hp
    cases hj : Json.parseText text with
    | ok v =>
      rw [hj] at hp
      cases hp
      exact ⟨rfl, .json text v hj, rfl, rfl⟩
    | error reason => simp [hj] at hp
  | keyword k =>
    rw [hk] at hp
    cases k <;> cases hp
    · exact ⟨rfl, .boolean true, rfl, rfl⟩
    · exact ⟨rfl, .boolean false, rfl, rfl⟩
    · exact ⟨rfl, .null, rfl, rfl⟩
  | _ => rw [hk] at hp; cases hp

theorem convertible_eq_ok {l : Literal} :
    convertible s = .ok l s' ↔ ∃ c : ConvertiblePhrase, c.literal = l ∧ Takes s [c.token] s' := by
  have hone : ∀ l₀ : Literal, (advance >>= fun _ => pure l₀ : Parser Literal) s = .ok l s' ↔
      l₀ = l ∧ advance s = .ok () s' := by
    intro l₀
    simp only [bind_eq_ok, pure_eq_ok]
    constructor
    · intro h
      obtain ⟨_, m, ha, rfl, rfl⟩ := h
      exact ⟨rfl, ha⟩
    · intro h
      obtain ⟨rfl, ha⟩ := h
      exact ⟨(), s', ha, rfl, rfl⟩
  simp only [Takes.single_iff]
  rw [convertible, get_bind]
  constructor
  · intro hp
    cases hk : s.current.kind with
    | string t => rw [hk] at hp; exact ⟨.string t, ((hone _).mp hp).1, rfl, ((hone _).mp hp).2⟩
    | integer n => rw [hk] at hp; exact ⟨.integer n, ((hone _).mp hp).1, rfl, ((hone _).mp hp).2⟩
    | float x => rw [hk] at hp; exact ⟨.float x, ((hone _).mp hp).1, rfl, ((hone _).mp hp).2⟩
    | _ => rw [hk] at hp; cases hp
  · rintro ⟨c, hl, hk, ha⟩
    rw [hk]
    cases c <;> exact (hone _).mpr ⟨hl, ha⟩

theorem conversion_eq_ok {o : Operand} :
    conversion s = .ok o s' ↔ ∃ (c : ConvertiblePhrase) (t : Chain String), .convert c.literal (pathName t) = o ∧
      Takes s (.mark .lparen :: c.token :: .mark .comma :: (pathTokens t ++ [.mark .rparen])) s' := by
  constructor
  · intro hp
    obtain ⟨_, m₁, h₁, hp⟩ := bind_eq_ok.mp hp
    obtain ⟨l, m₂, h₂, hp⟩ := bind_eq_ok.mp hp
    obtain ⟨_, m₃, h₃, hp⟩ := bind_eq_ok.mp hp
    obtain ⟨typeName, m₄, h₄, hp⟩ := bind_eq_ok.mp hp
    obtain ⟨_, m₅, h₅, hp⟩ := bind_eq_ok.mp hp
    obtain ⟨rfl, rfl⟩ := pure_eq_ok.mp hp
    obtain ⟨c, rfl, hc⟩ := convertible_eq_ok.mp h₂
    obtain ⟨t, rfl, ht⟩ := path_reads.sound h₄
    exact ⟨c, t, rfl, (expectMark_eq_ok.mp h₁).cons (hc.cons ((expectMark_eq_ok.mp h₃).cons
      (ht.append (expectMark_eq_ok.mp h₅))))⟩
  · intro h
    obtain ⟨c, t, rfl, ht⟩ := h
    obtain ⟨m₁, h₁, ht⟩ := ht.uncons
    obtain ⟨m₂, h₂, ht⟩ := ht.uncons
    obtain ⟨m₃, h₃, ht⟩ := ht.uncons
    obtain ⟨m₄, h₄, h₅⟩ := Takes.append_iff.mp ht
    refine bind_eq_ok.mpr ⟨_, m₁, expectMark_eq_ok.mpr h₁, ?_⟩
    refine bind_eq_ok.mpr ⟨_, m₂, convertible_eq_ok.mpr ⟨c, rfl, h₂⟩, ?_⟩
    refine bind_eq_ok.mpr ⟨_, m₃, expectMark_eq_ok.mpr h₃, ?_⟩
    refine bind_eq_ok.mpr ⟨_, m₄, path_reads.complete t h₄ (by simp [h₅.current_kind]), ?_⟩
    exact bind_eq_ok.mpr ⟨_, s', expectMark_eq_ok.mpr h₅, rfl⟩

/-- A value that is neither a parameter nor a conversion is a literal. -/
theorem value_of_literal (hp : ∀ name, s.current.kind ≠ .param name) (hc : s.current.kind ≠ .keyword .convert) :
    value s = (literal? >>= fun o => match o with
      | some l => advance >>= fun _ => pure (.literal l)
      | none => unexpected "a value") s := by
  rw [value, get_bind]
  cases hk : s.current.kind with
  | param name => exact absurd hk (hp name)
  | keyword k =>
    cases k with
    | convert => exact absurd hk hc
    | _ => rfl
  | _ => rfl

theorem value_reads : Reads value ValuePhrase.tokens ValuePhrase.operand [] where
  sound {s s' a} hp := by
    by_cases hn : ∃ name, s.current.kind = .param name
    · obtain ⟨name, hk⟩ := hn
      rw [value, get_bind, hk] at hp
      obtain ⟨_, m, ha, hp⟩ := bind_eq_ok.mp hp
      obtain ⟨rfl, rfl⟩ := pure_eq_ok.mp hp
      exact ⟨.param name, rfl, Takes.single_iff.mpr ⟨hk, ha⟩⟩
    by_cases hk : s.current.kind = .keyword .convert
    · rw [value, get_bind, hk] at hp
      obtain ⟨_, m, ha, hp⟩ := bind_eq_ok.mp hp
      obtain ⟨c, t, rfl, ht⟩ := conversion_eq_ok.mp hp
      exact ⟨.convert c t, rfl, (Takes.single_iff.mpr ⟨hk, ha⟩).cons ht⟩
    rw [value_of_literal (fun name hk => hn ⟨name, hk⟩) hk] at hp
    obtain ⟨o, m, ho, hp⟩ := bind_eq_ok.mp hp
    cases o with
    | none => cases hp
    | some l =>
      obtain ⟨rfl, p, rfl, hk⟩ := literal?_eq_some ho
      obtain ⟨_, m, ha, hp⟩ := bind_eq_ok.mp hp
      obtain ⟨rfl, rfl⟩ := pure_eq_ok.mp hp
      exact ⟨.literal p, rfl, Takes.single_iff.mpr ⟨hk, ha⟩⟩
  complete {s s'} v ht _ := by
    cases v with
    | literal l =>
      obtain ⟨hk, ha⟩ := Takes.single_iff.mp ht
      rw [value_of_literal (fun name hn => literal_token_ne_param l name (hk.symm.trans hn))
        (fun hc => literal_token_ne_convert l (hk.symm.trans hc))]
      refine bind_eq_ok.mpr ⟨_, s, literal?_of_token l hk, ?_⟩
      exact bind_eq_ok.mpr ⟨_, s', ha, rfl⟩
    | param name =>
      obtain ⟨hk, ha⟩ := Takes.single_iff.mp ht
      rw [value, get_bind, hk]
      exact bind_eq_ok.mpr ⟨_, s', ha, rfl⟩
    | convert c t =>
      obtain ⟨m, hk, ht⟩ := ht.uncons
      obtain ⟨hk, ha⟩ := Takes.single_iff.mp hk
      rw [value, get_bind, hk]
      exact bind_eq_ok.mpr ⟨_, m, ha, conversion_eq_ok.mpr ⟨c, t, rfl, ht⟩⟩

theorem values_reads :
    Reads (commaList value) (listTokens ValuePhrase.tokens) (fun c => c.items.map ValuePhrase.operand) [.mark .comma] :=
  commaList_reads value_reads List.not_mem_nil

theorem members_reads : Reads members MembersPhrase.tokens MembersPhrase.operand [] where
  sound hp := by
    rcases ite_accept_eq_ok.mp hp with ⟨m, hk, hp⟩ | ⟨-, hp⟩
    · obtain ⟨vs, n, hv, hp⟩ := bind_eq_ok.mp hp
      obtain ⟨_, l, hr, hp⟩ := bind_eq_ok.mp hp
      obtain ⟨rfl, rfl⟩ := pure_eq_ok.mp hp
      obtain ⟨c, rfl, hc⟩ := values_reads.sound hv
      exact ⟨.list c, rfl, hk.cons (hc.append (expectMark_eq_ok.mp hr))⟩
    · obtain ⟨v, rfl, hv⟩ := value_reads.sound hp
      exact ⟨.one v, rfl, hv⟩
  complete m ht _ := by
    apply ite_accept_eq_ok.mpr
    cases m with
    | one v =>
      refine .inr ⟨fun hk => ?_, value_reads.complete v ht List.not_mem_nil⟩
      obtain ⟨k, ts, hv, hne⟩ := value_starts v
      rw [MembersPhrase.tokens, hv] at ht
      exact hne _ (ht.current_kind.symm.trans hk)
    | list vs =>
      obtain ⟨m, hk, ht⟩ := ht.uncons
      obtain ⟨n, hv, hr⟩ := Takes.append_iff.mp ht
      refine .inl ⟨m, hk, bind_eq_ok.mpr ⟨_, n, values_reads.complete vs hv ?_, ?_⟩⟩
      · simp [hr.current_kind]
      · exact bind_eq_ok.mpr ⟨_, _, expectMark_eq_ok.mpr hr, rfl⟩

/-! ## Conditions -/

theorem comparisonOf?_token (r : Relation) : comparisonOf? r.token = some r.comparison := by cases r <;> rfl

theorem comparisonOf?_eq_some {kind : TokenKind} {op : Comparison} (h : comparisonOf? kind = some op) :
    ∃ r : Relation, r.comparison = op ∧ kind = r.token := by
  unfold comparisonOf? at h
  split at h <;> cases h
  · exact ⟨.equals, rfl, rfl⟩
  · exact ⟨.greater, rfl, rfl⟩
  · exact ⟨.lesser, rfl, rfl⟩
  · exact ⟨.greaterEquals, rfl, rfl⟩
  · exact ⟨.lesserEquals, rfl, rfl⟩
  · exact ⟨.like, rfl, rfl⟩

theorem relation_token_ne (r : Relation) : r.token ≠ .keyword .in ∧ r.token ≠ .keyword .between := by
  cases r <;> simp [Relation.token]

theorem comparison_reads : Reads comparison ComparisonPhrase.tokens ComparisonPhrase.condition [] where
  sound {s s' a} hp := by
    obtain ⟨field, m, hf, hp⟩ := bind_eq_ok.mp hp
    obtain ⟨p, rfl, ht⟩ := path_reads.sound hf
    rcases ite_accept_eq_ok.mp hp with ⟨n, hk, hp⟩ | ⟨-, hp⟩
    · obtain ⟨o, l, ho, hp⟩ := bind_eq_ok.mp hp
      obtain ⟨rfl, rfl⟩ := pure_eq_ok.mp hp
      obtain ⟨x, rfl, hx⟩ := members_reads.sound ho
      exact ⟨⟨p, .isIn x⟩, rfl, ht.append (hk.cons hx)⟩
    rcases ite_accept_eq_ok.mp hp with ⟨n, hk, hp⟩ | ⟨-, hp⟩
    · obtain ⟨low, n₁, hlow, hp⟩ := bind_eq_ok.mp hp
      obtain ⟨_, n₂, hand, hp⟩ := bind_eq_ok.mp hp
      obtain ⟨high, n₃, hhigh, hp⟩ := bind_eq_ok.mp hp
      obtain ⟨rfl, rfl⟩ := pure_eq_ok.mp hp
      obtain ⟨x, rfl, hx⟩ := value_reads.sound hlow
      obtain ⟨y, rfl, hy⟩ := value_reads.sound hhigh
      exact ⟨⟨p, .between x y⟩, rfl, ht.append (hk.cons (hx.append ((expectKeyword_eq_ok.mp hand).cons hy)))⟩
    · rw [get_bind] at hp
      cases hop : comparisonOf? m.current.kind with
      | none => rw [hop] at hp; cases hp
      | some op =>
        rw [hop] at hp
        obtain ⟨_, n, ha, hp⟩ := bind_eq_ok.mp hp
        obtain ⟨v, l, hv, hp⟩ := bind_eq_ok.mp hp
        obtain ⟨rfl, rfl⟩ := pure_eq_ok.mp hp
        obtain ⟨r, rfl, hk⟩ := comparisonOf?_eq_some hop
        obtain ⟨x, rfl, hx⟩ := value_reads.sound hv
        exact ⟨⟨p, .relation r x⟩, rfl, ht.append ((Takes.single_iff.mpr ⟨hk, ha⟩).cons hx)⟩
  complete {s s'} c ht _ := by
    obtain ⟨p, q⟩ := c
    obtain ⟨m, hp, hq⟩ := Takes.append_iff.mp ht
    have hdot : m.current.kind ∉ [.mark .dot] := by
      cases q with
      | relation r v => rw [hq.current_kind]; cases r <;> simp [Relation.token]
      | _ => simp [hq.current_kind]
    refine bind_eq_ok.mpr ⟨_, m, path_reads.complete p hp hdot, ?_⟩
    cases q with
    | relation r v =>
      obtain ⟨n, hk, hv⟩ := hq.uncons
      obtain ⟨hk, ha⟩ := Takes.single_iff.mp hk
      refine ite_accept_eq_ok.mpr (.inr ⟨by rw [hk]; exact (relation_token_ne r).1, ?_⟩)
      refine ite_accept_eq_ok.mpr (.inr ⟨by rw [hk]; exact (relation_token_ne r).2, ?_⟩)
      rw [get_bind, hk, comparisonOf?_token]
      refine bind_eq_ok.mpr ⟨_, n, ha, ?_⟩
      exact bind_eq_ok.mpr ⟨_, s', value_reads.complete v hv List.not_mem_nil, rfl⟩
    | isIn x =>
      obtain ⟨n, hk, hx⟩ := hq.uncons
      refine ite_accept_eq_ok.mpr (.inl ⟨n, hk, ?_⟩)
      exact bind_eq_ok.mpr ⟨_, s', members_reads.complete x hx List.not_mem_nil, rfl⟩
    | between x y =>
      obtain ⟨n, hk, hq⟩ := hq.uncons
      obtain ⟨n₁, hx, hq⟩ := Takes.append_iff.mp hq
      obtain ⟨n₂, hand, hy⟩ := hq.uncons
      refine ite_accept_eq_ok.mpr (.inr ⟨by simp [hk.current_kind], ?_⟩)
      refine ite_accept_eq_ok.mpr (.inl ⟨n, hk, ?_⟩)
      refine bind_eq_ok.mpr ⟨_, n₁, value_reads.complete x hx List.not_mem_nil, ?_⟩
      refine bind_eq_ok.mpr ⟨_, n₂, expectKeyword_eq_ok.mpr hand, ?_⟩
      exact bind_eq_ok.mpr ⟨_, s', value_reads.complete y hy List.not_mem_nil, rfl⟩

/-- A comparison starts with a name, so neither a negation nor a bracket. -/
theorem current_of_comparison {c : ComparisonPhrase} (h : Takes s c.tokens s') :
    s.current.kind ≠ .keyword .not ∧ s.current.kind ≠ .mark .lparen := by
  obtain ⟨name, ts, hc⟩ := comparison_starts c
  rw [hc] at h
  simp [h.current_kind]

theorem disjunction_reads {τ : Type} {term : Parser (Condition Operand)} {tokens : τ → List TokenKind}
    {meaning : τ → Condition Operand} (h : Reads term tokens meaning []) :
    Reads (disjunction term) (ConditionOf.tokens tokens) (ConditionOf.condition meaning)
      [.keyword .or, .keyword .and] :=
  chain_reads (chain_reads h List.not_mem_nil) (by simp)

/-- Where no level is left, a term is a comparison. -/
theorem term_zero_eq_ok {c : Condition Operand} :
    term 0 s = .ok c s' ↔
      s.current.kind ≠ .keyword .not ∧ s.current.kind ≠ .mark .lparen ∧ comparison s = .ok c s' := by
  have h : term 0 s = (if (s.current.kind == .keyword .not || s.current.kind == .mark .lparen) = true then
      malformed (.nestedTooDeep maxNesting) else comparison) s := rfl
  rw [h]
  by_cases hn : s.current.kind = .keyword .not
  · simp [hn]
  by_cases hl : s.current.kind = .mark .lparen
  · simp [hl]
  · simp [hn, hl]

theorem term_reads (levels : Nat) :
    Reads (term levels) (TermPhrase.tokens levels) (TermPhrase.condition levels) [] := by
  induction levels with
  | zero =>
    constructor
    · intro s s' a hp
      obtain ⟨c, rfl, hc⟩ := comparison_reads.sound (term_zero_eq_ok.mp hp).2.2
      exact ⟨TermOver.comparison c, rfl, hc⟩
    · intro s s' t ht _
      cases (t : TermOver Empty) with
      | comparison c =>
        obtain ⟨hn, hl⟩ := current_of_comparison ht
        exact term_zero_eq_ok.mpr ⟨hn, hl, comparison_reads.complete c ht List.not_mem_nil⟩
      | not e => exact e.elim
      | group c => exact c.head.head.elim
  | succ levels ih =>
    constructor
    · intro s s' a hp
      rcases ite_accept_eq_ok.mp hp with ⟨m, hk, hp⟩ | ⟨-, hp⟩
      · obtain ⟨c, n, hc, hp⟩ := bind_eq_ok.mp hp
        obtain ⟨rfl, rfl⟩ := pure_eq_ok.mp hp
        obtain ⟨t, rfl, ht⟩ := ih.sound hc
        exact ⟨TermOver.not t, rfl, hk.cons ht⟩
      rcases ite_accept_eq_ok.mp hp with ⟨m, hk, hp⟩ | ⟨-, hp⟩
      · obtain ⟨c, n, hc, hp⟩ := bind_eq_ok.mp hp
        obtain ⟨_, l, hr, hp⟩ := bind_eq_ok.mp hp
        obtain ⟨rfl, rfl⟩ := pure_eq_ok.mp hp
        obtain ⟨t, rfl, ht⟩ := (disjunction_reads ih).sound hc
        exact ⟨TermOver.group t, rfl, hk.cons (ht.append (expectMark_eq_ok.mp hr))⟩
      · obtain ⟨c, rfl, hc⟩ := comparison_reads.sound hp
        exact ⟨TermOver.comparison c, rfl, hc⟩
    · intro s s' t ht _
      apply ite_accept_eq_ok.mpr
      cases (t : TermOver (TermPhrase levels)) with
      | comparison c =>
        refine .inr ⟨(current_of_comparison ht).1, ?_⟩
        refine ite_accept_eq_ok.mpr (.inr ⟨(current_of_comparison ht).2, ?_⟩)
        exact comparison_reads.complete c ht List.not_mem_nil
      | not t =>
        obtain ⟨m, hk, ht⟩ := ht.uncons
        refine .inl ⟨m, hk, ?_⟩
        exact bind_eq_ok.mpr ⟨_, s', ih.complete t ht List.not_mem_nil, rfl⟩
      | group c =>
        obtain ⟨m, hk, ht⟩ := Takes.uncons ht
        obtain ⟨n, hc, hr⟩ := Takes.append_iff.mp ht
        refine .inr ⟨by simp [hk.current_kind], ?_⟩
        refine ite_accept_eq_ok.mpr (.inl ⟨m, hk, ?_⟩)
        refine bind_eq_ok.mpr ⟨_, n, (disjunction_reads ih).complete c hc (by simp [hr.current_kind]), ?_⟩
        exact bind_eq_ok.mpr ⟨_, s', expectMark_eq_ok.mpr hr, rfl⟩

theorem condition_reads :
    Reads condition ConditionPhrase.tokens ConditionPhrase.condition [.keyword .or, .keyword .and] :=
  disjunction_reads (term_reads _)

/-! ## Clauses -/

theorem where_reads :
    Reads whereClause whereTokens (Option.map ConditionPhrase.condition)
      [.keyword .where, .keyword .or, .keyword .and] :=
  condition_reads.optional

theorem count_reads (k : Keyword) :
    Reads (count k) (fun n : CountPhrase => [.integer n.1]) (fun n : CountPhrase => n.1.toInt.toNat) [] :=
  ⟨fun hp => count_eq_ok.mp hp, fun n ht _ => count_eq_ok.mpr ⟨n, rfl, ht⟩⟩

theorem countClause_reads (k : Keyword) : Reads (countClause k) (countTokens k) countOf [.keyword k] :=
  (count_reads k).optional

theorem sortKey_reads :
    Reads sortKey SortPhrase.tokens SortPhrase.sortKey [.keyword .asc, .keyword .desc, .mark .dot] where
  sound hp := by
    obtain ⟨field, m, hf, hp⟩ := bind_eq_ok.mp hp
    obtain ⟨p, rfl, ht⟩ := path_reads.sound hf
    rcases ite_accept_eq_ok.mp hp with ⟨n, hk, hp⟩ | ⟨-, hp⟩
    · obtain ⟨rfl, rfl⟩ := pure_eq_ok.mp hp
      exact ⟨⟨p, some .desc⟩, rfl, ht.append hk⟩
    · obtain ⟨b, n, hb, hp⟩ := bind_eq_ok.mp hp
      obtain ⟨rfl, rfl⟩ := pure_eq_ok.mp hp
      rcases accept_eq_ok.mp hb with ⟨-, hk⟩ | ⟨-, -, rfl⟩
      · exact ⟨⟨p, some .asc⟩, rfl, ht.append hk⟩
      · exact ⟨⟨p, none⟩, rfl, ht.append (.none _)⟩
  complete {s s'} k ht hm := by
    obtain ⟨p, d⟩ := k
    obtain ⟨m, hp, hd⟩ := Takes.append_iff.mp ht
    simp only [List.mem_cons, not_or] at hm
    cases d with
    | none =>
      obtain rfl := Takes.nil_iff.mp hd
      refine bind_eq_ok.mpr ⟨_, m, path_reads.complete p hp (by simpa using hm.2.2), ?_⟩
      refine ite_accept_eq_ok.mpr (.inr ⟨hm.2.1, ?_⟩)
      exact bind_eq_ok.mpr ⟨_, m, accept_false hm.1, rfl⟩
    | some d =>
      have hk : m.current.kind = .keyword d.keyword := hd.current_kind
      refine bind_eq_ok.mpr ⟨_, m, path_reads.complete p hp (by simp [hk]), ?_⟩
      cases d with
      | asc =>
        refine ite_accept_eq_ok.mpr (.inr ⟨by simp [hk, Direction.keyword], ?_⟩)
        exact bind_eq_ok.mpr ⟨_, s', accept_true hd, rfl⟩
      | desc => exact ite_accept_eq_ok.mpr (.inl ⟨s', hd, rfl⟩)

theorem order_reads :
    Reads orderClause orderTokens sortKeys
      [.keyword .order, .mark .comma, .keyword .asc, .keyword .desc, .mark .dot] where
  sound hp := by
    rcases ite_accept_eq_ok.mp hp with ⟨m, hk, hp⟩ | ⟨-, hp⟩
    · obtain ⟨_, n, hb, hp⟩ := bind_eq_ok.mp hp
      obtain ⟨keys, rfl, ht⟩ := (commaList_reads sortKey_reads (by simp)).sound hp
      exact ⟨some keys, rfl, hk.cons ((expectKeyword_eq_ok.mp hb).cons ht)⟩
    · obtain ⟨rfl, rfl⟩ := pure_eq_ok.mp hp
      exact ⟨none, rfl, .none _⟩
  complete o ht hm := by
    apply ite_accept_eq_ok.mpr
    cases o with
    | none =>
      obtain rfl := Takes.nil_iff.mp ht
      exact .inr ⟨fun hk => hm (by simp [hk]), rfl⟩
    | some keys =>
      obtain ⟨m, hk, ht⟩ := ht.uncons
      obtain ⟨n, hb, ht⟩ := ht.uncons
      refine .inl ⟨m, hk, bind_eq_ok.mpr ⟨_, n, expectKeyword_eq_ok.mpr hb, ?_⟩⟩
      exact (commaList_reads sortKey_reads (by simp)).complete keys ht fun h => hm (List.mem_cons_of_mem _ h)

theorem paths_reads :
    Reads (commaList path) (listTokens pathTokens) (fun c => c.items.map pathName) [.mark .comma, .mark .dot] :=
  commaList_reads path_reads (by simp)

theorem selection_eq_ok {fields : List String} (hs : s'.current.kind = .keyword .from) :
    selection s = .ok fields s' ↔ ∃ p : SelectionPhrase, p.fields = fields ∧ Takes s p.tokens s' := by
  have h : selection = (accept (.mark .star) >>= fun b => if b = true then pure [] else
      isKind (.keyword .from) >>= fun b => if b = true then pure [] else commaList path) := rfl
  have hfrom : ∀ {m : ParserState} {p : Parser (List String)}, (isKind (.keyword .from) >>= fun b =>
      if b = true then pure [] else p) m = (if m.current.kind = .keyword .from then pure [] else p) m := by
    intro m p
    show (if (m.current.kind == .keyword .from) = true then pure [] else p) m = _
    simp only [beq_iff_eq]
  rw [h, ite_accept_eq_ok, hfrom]
  constructor
  · intro h
    rcases h with ⟨m, hk, hp⟩ | ⟨-, hp⟩
    · obtain ⟨rfl, rfl⟩ := pure_eq_ok.mp hp
      exact ⟨.star, rfl, hk⟩
    · split at hp
      · obtain ⟨rfl, rfl⟩ := pure_eq_ok.mp hp
        exact ⟨.nothing, rfl, .none _⟩
      · obtain ⟨ps, rfl, ht⟩ := paths_reads.sound hp
        exact ⟨.paths ps, rfl, ht⟩
  · intro h
    obtain ⟨p, rfl, ht⟩ := h
    cases p with
    | star => exact .inl ⟨s', ht, rfl⟩
    | nothing =>
      obtain rfl := Takes.nil_iff.mp ht
      exact .inr ⟨by simp [hs], by simp [hs, SelectionPhrase.fields]⟩
    | paths ps =>
      have hk : s.current.kind = .identifier ps.head.head := by
        change Takes s (.identifier ps.head.head :: _) s' at ht
        exact ht.current_kind
      refine .inr ⟨by simp [hk], ?_⟩
      rw [if_neg (by simp [hk])]
      exact paths_reads.complete ps ht (by simp [hs])

theorem assignment_reads : Reads assignment AssignmentPhrase.tokens AssignmentPhrase.assignment [] where
  sound hp := by
    obtain ⟨field, m, hf, hp⟩ := bind_eq_ok.mp hp
    obtain ⟨_, n, he, hp⟩ := bind_eq_ok.mp hp
    obtain ⟨v, l, hv, hp⟩ := bind_eq_ok.mp hp
    obtain ⟨rfl, rfl⟩ := pure_eq_ok.mp hp
    obtain ⟨p, rfl, ht⟩ := path_reads.sound hf
    obtain ⟨x, rfl, hx⟩ := value_reads.sound hv
    exact ⟨⟨p, x⟩, rfl, ht.append ((expectMark_eq_ok.mp he).cons hx)⟩
  complete {s s'} a ht _ := by
    obtain ⟨p, x⟩ := a
    obtain ⟨m, hp, ht⟩ := Takes.append_iff.mp ht
    obtain ⟨n, he, hx⟩ := ht.uncons
    refine bind_eq_ok.mpr ⟨_, m, path_reads.complete p hp (by simp [he.current_kind]), ?_⟩
    refine bind_eq_ok.mpr ⟨_, n, expectMark_eq_ok.mpr he, ?_⟩
    exact bind_eq_ok.mpr ⟨_, s', value_reads.complete x hx List.not_mem_nil, rfl⟩

theorem assignments_reads :
    Reads (commaList assignment) (listTokens AssignmentPhrase.tokens)
      (fun c => c.items.map AssignmentPhrase.assignment) [.mark .comma] :=
  commaList_reads assignment_reads List.not_mem_nil

/-! ## Operations -/

/-- A parser that takes the token in front, whatever it is, and then reads a kind of
    phrase. -/
def ReadsNext {α τ : Type} (p : Parser α) (tokens : τ → List TokenKind) (meaning : τ → α) (more : List TokenKind) :
    Prop :=
  ∃ q : Parser α, p = (advance >>= fun _ => q) ∧ Reads q tokens meaning more

section ReadsNext

variable {α β τ : Type} {p : Parser α} {tokens : τ → List TokenKind} {meaning : τ → α} {more : List TokenKind}

theorem ReadsNext.sound (h : ReadsNext p tokens meaning more) {f : α → β} {b : β} (hp : (f <$> p) s = .ok b s') :
    ∃ t, f (meaning t) = b ∧ Takes s (s.current.kind :: tokens t) s' := by
  obtain ⟨q, rfl, hq⟩ := h
  obtain ⟨a, hb, rfl⟩ := map_eq_ok.mp hp
  obtain ⟨_, m, ha, hrest⟩ := bind_eq_ok.mp hb
  obtain ⟨t, rfl, ht⟩ := hq.sound hrest
  exact ⟨t, rfl, .token ha ht⟩

theorem ReadsNext.complete (h : ReadsNext p tokens meaning more) (f : α → β) {k : TokenKind} {t : τ}
    (ht : Takes s (k :: tokens t) s') (hm : s'.current.kind ∉ more) : (f <$> p) s = .ok (f (meaning t)) s' := by
  obtain ⟨q, rfl, hq⟩ := h
  obtain ⟨-, m, ha, ht⟩ := Takes.cons_iff.mp ht
  exact map_eq_ok.mpr ⟨_, bind_eq_ok.mpr ⟨_, m, ha, hq.complete t ht hm⟩, rfl⟩

end ReadsNext

theorem keys_reads (op : Operation) :
    ReadsNext (keys op) (listTokens ValuePhrase.tokens) (fun c => c.items.map ValuePhrase.operand) clauseTokens := by
  refine ⟨isKind .endOfInput >>= fun b => if b = true then throw (.query (.missingKeys op)) else commaList value,
    rfl, ?_⟩
  have h : ∀ m, (isKind .endOfInput >>= fun b => if b = true then throw (.query (.missingKeys op))
      else commaList value : Parser (List Operand)) m =
      (if m.current.kind = .endOfInput then throw (.query (.missingKeys op)) else commaList value : Parser _) m := by
    intro m
    show (if (m.current.kind == TokenKind.endOfInput) = true then _ else _ : Parser _) m = _
    simp only [beq_iff_eq]
  constructor
  · intro s s' vs hp
    rw [h] at hp
    split at hp
    · cases hp
    · exact values_reads.sound hp
  · intro s s' c ht hm
    have hne : s.current.kind ≠ .endOfInput := by
      obtain ⟨k, ts, hv, -⟩ := value_starts c.head
      have hk : k ≠ .endOfInput := fun he => value_withoutEnd c.head (by simp [hv, he])
      simp only [listTokens, Chain.tokens, hv, List.cons_append] at ht
      rw [ht.current_kind]
      exact hk
    rw [h, if_neg hne]
    exact (values_reads.mono (by simp [clauseTokens])).complete c ht hm

/-- Where an optional part does not start, what comes after it does. -/
theorem current_notMem_of_optional {τ : Type} {k : TokenKind} {tokens : τ → List TokenKind} {more : List TokenKind}
    {o : Option τ} (h : Takes s (optionalTokens (fun t => k :: tokens t) o) s') (hk : k ∉ more)
    (hm : s'.current.kind ∉ more) : s.current.kind ∉ more := by
  cases o with
  | none =>
    obtain rfl := Takes.nil_iff.mp h
    exact hm
  | some t => rw [h.current_kind]; exact hk

theorem selectQuery_reads : ReadsNext selectQuery SelectPhrase.tokens SelectPhrase.query clauseTokens := by
  refine ⟨_, rfl, ?_, ?_⟩
  · intro s s' a hp
    obtain ⟨fields, m₁, h₁, hp⟩ := bind_eq_ok.mp hp
    obtain ⟨_, m₂, h₂, hp⟩ := bind_eq_ok.mp hp
    obtain ⟨entity, m₃, h₃, hp⟩ := bind_eq_ok.mp hp
    obtain ⟨condition, m₄, h₄, hp⟩ := bind_eq_ok.mp hp
    obtain ⟨sorts, m₅, h₅, hp⟩ := bind_eq_ok.mp hp
    obtain ⟨skip, m₆, h₆, hp⟩ := bind_eq_ok.mp hp
    obtain ⟨limit, m₇, h₇, hp⟩ := bind_eq_ok.mp hp
    obtain ⟨rfl, rfl⟩ := pure_eq_ok.mp hp
    have hfrom := expectKeyword_eq_ok.mp h₂
    obtain ⟨f, rfl, hf⟩ := (selection_eq_ok hfrom.current_kind).mp h₁
    obtain ⟨c, rfl, hc⟩ := where_reads.sound h₄
    obtain ⟨o, rfl, ho⟩ := order_reads.sound h₅
    obtain ⟨n, rfl, hn⟩ := (countClause_reads _).sound h₆
    obtain ⟨l, rfl, hl⟩ := (countClause_reads _).sound h₇
    exact ⟨⟨f, entity, c, o, n, l⟩, rfl,
      hf.append (hfrom.cons ((identifier_eq_ok.mp h₃).cons (hc.append (ho.append (hn.append hl)))))⟩
  · intro s s' ⟨f, entity, c, o, n, l⟩ ht hm
    obtain ⟨m₁, h₁, ht⟩ := Takes.append_iff.mp ht
    obtain ⟨m₂, h₂, ht⟩ := ht.uncons
    obtain ⟨m₃, h₃, ht⟩ := ht.uncons
    obtain ⟨m₄, h₄, ht⟩ := Takes.append_iff.mp ht
    obtain ⟨m₅, h₅, ht⟩ := Takes.append_iff.mp ht
    obtain ⟨m₆, h₆, h₇⟩ := Takes.append_iff.mp ht
    -- what stands behind each clause is the start of a later one, or what stands behind them all
    have hm₆ : ∀ {more}, more ⊆ clauseTokens → .keyword .limit ∉ more → m₆.current.kind ∉ more := fun hs hl =>
      current_notMem_of_optional h₇ hl fun hk => hm (hs hk)
    have hm₅ : ∀ {more}, more ⊆ clauseTokens → .keyword .limit ∉ more → .keyword .skip ∉ more →
        m₅.current.kind ∉ more := fun hs hl hk => current_notMem_of_optional h₆ hk (hm₆ hs hl)
    have hm₄ : m₄.current.kind ∉ [.keyword .where, .keyword .or, .keyword .and] :=
      current_notMem_of_optional h₅ (by simp) (hm₅ (by simp [clauseTokens]) (by simp) (by simp))
    refine bind_eq_ok.mpr ⟨_, m₁, (selection_eq_ok h₂.current_kind).mpr ⟨f, rfl, h₁⟩, ?_⟩
    refine bind_eq_ok.mpr ⟨_, m₂, expectKeyword_eq_ok.mpr h₂, ?_⟩
    refine bind_eq_ok.mpr ⟨_, m₃, identifier_eq_ok.mpr h₃, ?_⟩
    refine bind_eq_ok.mpr ⟨_, m₄, where_reads.complete c h₄ hm₄, ?_⟩
    refine bind_eq_ok.mpr ⟨_, m₅, order_reads.complete o h₅
      (hm₅ (by simp [clauseTokens]) (by simp) (by simp)), ?_⟩
    refine bind_eq_ok.mpr ⟨_, m₆, (countClause_reads _).complete n h₆ (hm₆ (by simp [clauseTokens]) (by simp)), ?_⟩
    exact bind_eq_ok.mpr ⟨_, s', ((countClause_reads _).mono (by simp [clauseTokens])).complete l h₇ hm, rfl⟩

theorem updateQuery_reads : ReadsNext updateQuery UpdatePhrase.tokens UpdatePhrase.query clauseTokens := by
  refine ⟨_, rfl, ?_, ?_⟩
  · intro s s' a hp
    obtain ⟨entity, m₁, h₁, hp⟩ := bind_eq_ok.mp hp
    obtain ⟨_, m₂, h₂, hp⟩ := bind_eq_ok.mp hp
    obtain ⟨set, m₃, h₃, hp⟩ := bind_eq_ok.mp hp
    obtain ⟨condition, m₄, h₄, hp⟩ := bind_eq_ok.mp hp
    obtain ⟨rfl, rfl⟩ := pure_eq_ok.mp hp
    obtain ⟨a, rfl, ha⟩ := assignments_reads.sound h₃
    obtain ⟨c, rfl, hc⟩ := where_reads.sound h₄
    exact ⟨⟨entity, a, c⟩, rfl, (identifier_eq_ok.mp h₁).cons ((expectKeyword_eq_ok.mp h₂).cons (ha.append hc))⟩
  · intro s s' ⟨entity, a, c⟩ ht hm
    obtain ⟨m₁, h₁, ht⟩ := ht.uncons
    obtain ⟨m₂, h₂, ht⟩ := ht.uncons
    obtain ⟨m₃, h₃, h₄⟩ := Takes.append_iff.mp ht
    have hm₃ : m₃.current.kind ∉ [.mark .comma] :=
      current_notMem_of_optional h₄ (by simp) fun hk => hm (by simp [List.mem_singleton.mp hk, clauseTokens])
    refine bind_eq_ok.mpr ⟨_, m₁, identifier_eq_ok.mpr h₁, ?_⟩
    refine bind_eq_ok.mpr ⟨_, m₂, expectKeyword_eq_ok.mpr h₂, ?_⟩
    refine bind_eq_ok.mpr ⟨_, m₃, assignments_reads.complete a h₃ hm₃, ?_⟩
    exact bind_eq_ok.mpr ⟨_, s', (where_reads.mono (by simp [clauseTokens])).complete c h₄ hm, rfl⟩

theorem insertQuery_reads : ReadsNext insertQuery InsertPhrase.tokens InsertPhrase.query clauseTokens := by
  refine ⟨_, rfl, ?_, ?_⟩
  · intro s s' a hp
    obtain ⟨entity, m₁, h₁, hp⟩ := bind_eq_ok.mp hp
    obtain ⟨_, m₂, h₂, hp⟩ := bind_eq_ok.mp hp
    obtain ⟨items, m₃, h₃, hp⟩ := bind_eq_ok.mp hp
    obtain ⟨_, m₄, h₄, hp⟩ := bind_eq_ok.mp hp
    obtain ⟨rfl, rfl⟩ := pure_eq_ok.mp hp
    obtain ⟨a, rfl, ha⟩ := assignments_reads.sound h₃
    exact ⟨⟨entity, a⟩, rfl,
      (identifier_eq_ok.mp h₁).cons ((expectMark_eq_ok.mp h₂).cons (ha.append (expectMark_eq_ok.mp h₄)))⟩
  · intro s s' ⟨entity, a⟩ ht _
    obtain ⟨m₁, h₁, ht⟩ := ht.uncons
    obtain ⟨m₂, h₂, ht⟩ := ht.uncons
    obtain ⟨m₃, h₃, h₄⟩ := Takes.append_iff.mp ht
    refine bind_eq_ok.mpr ⟨_, m₁, identifier_eq_ok.mpr h₁, ?_⟩
    refine bind_eq_ok.mpr ⟨_, m₂, expectMark_eq_ok.mpr h₂, ?_⟩
    refine bind_eq_ok.mpr ⟨_, m₃, assignments_reads.complete a h₃ (by simp [h₄.current_kind]), ?_⟩
    exact bind_eq_ok.mpr ⟨_, s', expectMark_eq_ok.mpr h₄, rfl⟩

theorem operation_reads : Reads operation QueryPhrase.tokens QueryPhrase.query clauseTokens where
  sound {s s' a} hp := by
    rw [operation, get_bind] at hp
    cases hk : s.current.kind with
    | keyword k =>
      rw [hk] at hp
      cases k with
      | get =>
        obtain ⟨t, rfl, ht⟩ := (keys_reads .get).sound hp
        exact ⟨.get t, rfl, by rwa [hk] at ht⟩
      | delete =>
        obtain ⟨t, rfl, ht⟩ := (keys_reads .delete).sound hp
        exact ⟨.delete t, rfl, by rwa [hk] at ht⟩
      | select =>
        obtain ⟨t, rfl, ht⟩ := selectQuery_reads.sound hp
        exact ⟨.select t, rfl, by rwa [hk] at ht⟩
      | update =>
        obtain ⟨t, rfl, ht⟩ := updateQuery_reads.sound hp
        exact ⟨.update t, rfl, by rwa [hk] at ht⟩
      | insert =>
        obtain ⟨t, rfl, ht⟩ := insertQuery_reads.sound hp
        exact ⟨.insert t, rfl, by rwa [hk] at ht⟩
      | _ => cases hp
    | _ => rw [hk] at hp; cases hp
  complete {s s'} q ht hm := by
    rw [operation, get_bind]
    cases q with
    | get keys => rw [ht.current_kind]; exact (keys_reads .get).complete Query.get ht hm
    | delete keys => rw [ht.current_kind]; exact (keys_reads .delete).complete Query.delete ht hm
    | select q => rw [ht.current_kind]; exact selectQuery_reads.complete Query.select ht hm
    | update q => rw [ht.current_kind]; exact updateQuery_reads.complete Query.update ht hm
    | insert q => rw [ht.current_kind]; exact insertQuery_reads.complete Query.insert ht hm

end EntityQuery.Parser
