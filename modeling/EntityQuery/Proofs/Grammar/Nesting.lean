/-
  EntityQuery.Proofs.Grammar.Nesting — where a parser reports that a condition is nested
  too deep.

  (1) The tokens that lead to the start of a term at the limit are whole terms and
  connectives, and one token for every level that stays open (`TermPhrase.ways`). The
  brackets of lists and conversions are inside whole terms.

  (2) A parser that reads terms reports the limit exactly behind such tokens, at a
  negation or a bracket in front there (`Meets`). Through a chain lead its items before,
  each with the connective behind it (`chain_meets`).

  (3) So for any calls on one parser, failed ones included, the counter of what is open is
  back at zero after each, never past the limit, and each call reports the limit exactly
  there (`nesting_of_calls`).
-/

import EntityQuery.Proofs.Grammar.Counting
import EntityQuery.Proofs.Grammar.Faults
import EntityQuery.Proofs.Grammar.Offence

namespace EntityQuery

/-! ## (1) Ways into conditions -/

section Ways

variable {τ : Type}

/-- Items, each with a separator behind it. -/
def Chain.ahead (separator : TokenKind) (tokens : τ → List TokenKind) (items : List τ) : List TokenKind :=
  items.flatMap fun t => tokens t ++ [separator]

/-- What leads through the items of a chain and into one of them. -/
def Chain.ways (separator : TokenKind) (tokens : τ → List TokenKind) (ways : Language TokenKind) : Language TokenKind :=
  Parser.spelled (Chain.ahead separator tokens) * ways

def ConditionOf.ways (tokens : τ → List TokenKind) (ways : Language TokenKind) : Language TokenKind :=
  Chain.ways (.keyword .or) (Chain.tokens (.keyword .and) tokens) (Chain.ways (.keyword .and) tokens ways)

/-- What leads from the start of a term to the start of one in which so many more
    negations and brackets are open. -/
def TermPhrase.ways : Nat → Language TokenKind
  | 0 => 1
  | levels + 1 =>
    {[.keyword .not]} * ways levels + {[.mark .lparen]} * ConditionOf.ways (TermPhrase.tokens levels) (ways levels)

/-- What leads from the start of a condition to the start of a term at the limit. -/
def ConditionPhrase.ways : Language TokenKind :=
  ConditionOf.ways (TermPhrase.tokens Parser.maxNesting) (TermPhrase.ways Parser.maxNesting)

def WhereWays : Language TokenKind := {[.keyword .where]} * ConditionPhrase.ways

/-- What leads from the start of a query there: up to its condition, and into it. -/
def QueryPhrase.ways : Language TokenKind :=
  {[.keyword .select]} * (Parser.spelled SelectionPhrase.tokens * ({[.keyword .from]} *
      (Parser.spelled (fun name : String => [.identifier name]) * WhereWays))) +
    {[.keyword .update]} * (Parser.spelled (fun name : String => [.identifier name]) * ({[.keyword .set]} *
      (Parser.spelled (listTokens AssignmentPhrase.tokens) * WhereWays)))

end Ways

namespace Parser

variable {α β τ : Type} {s m : ParserState} {e : QueryError}

/-! ## (2) Reports -/

/-- A token that opens a level. -/
def Opens (k : TokenKind) : Prop := k = .keyword .not ∨ k = .mark .lparen

def tooDeep (m : ParserState) : QueryError := .malformed (.nestedTooDeep maxNesting) m.current.position

/-- A parser reports nesting exactly at what opens a level behind one of the ways. -/
structure Meets (p : Parser α) (ways : Language TokenKind) : Prop where
  sound : ∀ {s m e}, Clean s → p s = .error e m → e.isTooDeep = true →
    e = tooDeep m ∧ Opens m.current.kind ∧ ∃ ks ∈ ways, Takes s ks m
  complete : ∀ {s m ks}, ks ∈ ways → Takes s ks m → Opens m.current.kind → p s = .error (tooDeep m) m

theorem Reads.clean {p : Parser α} {tokens : τ → List TokenKind} {meaning : τ → α} {more : List TokenKind}
    (h : Reads p tokens meaning more) {a : α} (hs : Clean s) (hp : p s = .ok a m) : Clean m := by
  obtain ⟨t, -, ht⟩ := h.sound hp
  exact ht.clean hs

namespace Meets

variable {p q : Parser α} {L L₁ L₂ : Language TokenKind}

theorem of_plain (h : Plain p) : Meets p 0 where
  sound hs hp hdeep := absurd hp (h.error_ne hs hdeep)
  complete hks := hks.elim

/-- What comes behind reports nothing. -/
theorem bind_plain (h : Meets p L) (hclean : ∀ {s a m}, Clean s → p s = .ok a m → Clean m) {f : α → Parser β}
    (hf : ∀ a, Plain (f a)) : Meets (p >>= f) L where
  sound hs hp hdeep := by
    rcases bind_eq_error.mp hp with he | ⟨a, l, ha, he⟩
    · exact h.sound hs he hdeep
    · exact absurd he ((hf a).error_ne (hclean hs ha) hdeep)
  complete hks ht hopens := bind_eq_error.mpr (.inl (h.complete hks ht hopens))

theorem ite_accept {k : TokenKind} (hp : Meets p L₁) (hq : Meets q L₂)
    (hne : ∀ {s m ks}, ks ∈ L₂ → Takes s ks m → s.current.kind ≠ k) :
    Meets (accept k >>= fun b => if b = true then p else q) ({[k]} * L₁ + L₂) where
  sound {s m e} hs h hdeep := by
    by_cases hk : s.current.kind = k
    · rw [accept_bind_of_eq hk] at h
      rcases bind_eq_error.mp h with he | ⟨_, l, ha, he⟩
      · exact absurd he (Plain.advance.error_ne hs hdeep)
      · obtain ⟨heq, hopens, ks, hks, ht⟩ := hp.sound (hs.advance_ok ha) he hdeep
        exact ⟨heq, hopens, [k] ++ ks, .inl (Language.append_mem_mul rfl hks),
          (Takes.single_iff.mpr ⟨hk, ha⟩).append ht⟩
    · rw [accept_bind_of_ne hk] at h
      obtain ⟨heq, hopens, ks, hks, ht⟩ := hq.sound hs h hdeep
      exact ⟨heq, hopens, ks, .inr hks, ht⟩
  complete {s m ks} hks ht hopens := by
    rcases hks with ⟨_, rfl, ks, hks, rfl⟩ | hks
    · obtain ⟨l, hk, ht⟩ := Takes.append_iff.mp ht
      obtain ⟨hk, ha⟩ := Takes.single_iff.mp hk
      rw [accept_bind_of_eq hk]
      exact bind_eq_error.mpr (.inr ⟨(), l, ha, hp.complete hks ht hopens⟩)
    · rw [accept_bind_of_ne (hne hks ht)]
      exact hq.complete hks ht hopens

end Meets

/-! ### Chains -/

section Connective

variable {term : Parser (Condition Operand)} {tokens : τ → List TokenKind} {meaning : τ → Condition Operand}
  {more : List TokenKind} {k : Keyword} {join : Condition Operand → Condition Operand → Condition Operand}
  {L : Language TokenKind}

theorem ahead_cons (separator : TokenKind) (t : τ) (items : List τ) :
    Chain.ahead separator tokens (t :: items) = tokens t ++ separator :: Chain.ahead separator tokens items := by
  simp [Chain.ahead]

theorem moreTerms_meets_sound (h : Reads term tokens meaning more) (hmeets : Meets term L) {bound : Nat}
    {left : Condition Operand} (hs : Clean s) (hp : moreTerms k join term bound left s = .error e m)
    (hdeep : e.isTooDeep = true) :
    e = tooDeep m ∧ Opens m.current.kind ∧
      ∃ ks ∈ Chain.ways (.keyword k) tokens L, Takes s (.keyword k :: ks) m := by
  induction bound generalizing s left with
  | zero => cases hp
  | succ bound ih =>
    by_cases hk : s.current.kind = .keyword k
    · rw [moreTerms, acceptKeyword, accept_bind_of_eq hk] at hp
      rcases bind_eq_error.mp hp with he | ⟨_, l, ha, he⟩
      · exact absurd he (Plain.advance.error_ne hs hdeep)
      have hl := hs.advance_ok ha
      have hconnective : Takes s [.keyword k] l := Takes.single_iff.mpr ⟨hk, ha⟩
      rcases bind_eq_error.mp he with he | ⟨right, n, hright, he⟩
      · obtain ⟨heq, hopens, ks, hks, ht⟩ := hmeets.sound hl he hdeep
        exact ⟨heq, hopens, ks, ⟨[], ⟨[], rfl⟩, ks, hks, rfl⟩, hconnective.cons ht⟩
      · obtain ⟨t, -, ht⟩ := h.sound hright
        obtain ⟨heq, hopens, _, ⟨_, ⟨items, rfl⟩, ks, hks, rfl⟩, hrest⟩ := ih (ht.clean hl) he
        refine ⟨heq, hopens, _, ⟨_, ⟨t :: items, rfl⟩, ks, hks, rfl⟩, hconnective.cons ?_⟩
        simp only [ahead_cons, List.append_assoc, List.cons_append]
        exact ht.append hrest
    · rw [moreTerms, acceptKeyword, accept_bind_of_ne hk] at hp
      cases hp

theorem moreTerms_meets_complete (h : Reads term tokens meaning more) (hk : .keyword k ∉ more) (hmeets : Meets term L)
    {items : List τ} {bound : Nat} (hbound : items.length < bound) {ks : List TokenKind} (hks : ks ∈ L)
    {left : Condition Operand} (ht : Takes s (.keyword k :: (Chain.ahead (.keyword k) tokens items ++ ks)) m)
    (hopens : Opens m.current.kind) : moreTerms k join term bound left s = .error (tooDeep m) m := by
  induction items generalizing s bound left with
  | nil =>
    obtain ⟨bound, rfl⟩ : ∃ b, bound = b + 1 := ⟨bound - 1, by omega⟩
    obtain ⟨hfront, l, ha, ht⟩ := Takes.cons_iff.mp ht
    rw [moreTerms, acceptKeyword, accept_bind_of_eq hfront]
    refine bind_eq_error.mpr (.inr ⟨(), l, ha, bind_eq_error.mpr (.inl ?_)⟩)
    exact hmeets.complete hks ht hopens
  | cons t items ih =>
    obtain ⟨bound, rfl⟩ : ∃ b, bound = b + 1 := ⟨bound - 1, by omega⟩
    obtain ⟨hfront, l, ha, ht⟩ := Takes.cons_iff.mp ht
    rw [ahead_cons, List.append_assoc] at ht
    obtain ⟨n, ht, hrest⟩ := Takes.append_iff.mp ht
    have hnext : n.current.kind ∉ more := by
      rw [hrest.current_kind]
      exact hk
    rw [moreTerms, acceptKeyword, accept_bind_of_eq hfront]
    refine bind_eq_error.mpr (.inr ⟨(), l, ha, bind_eq_error.mpr (.inr ⟨_, n, h.complete t ht hnext, ?_⟩)⟩)
    exact ih (by simpa using hbound) hrest

/-- The connectives ahead are among what is left, so a chain reads that far. -/
theorem ahead_length_lt {items : List τ} {ks : List TokenKind}
    (ht : Takes s (.keyword k :: (Chain.ahead (.keyword k) tokens items ++ ks)) m) :
    items.length < s.feed.upcoming.length + 1 := by
  have hcount : items.length ≤ (Chain.ahead (.keyword k) tokens items).countP (· != .endOfInput) := by
    clear ht
    induction items with
    | nil => simp
    | cons t items ih =>
      rw [ahead_cons, List.countP_append, List.countP_cons]
      simp only [List.length_cons, bne_iff_ne, ne_eq, reduceCtorEq, not_false_eq_true, if_true]
      omega
  have hleft := ht.count_le
  have hfront : s.current.kind ≠ .endOfInput := by simp [ht.current_kind]
  simp only [List.countP_cons, List.countP_append, left, hfront, if_false] at hleft
  simp only [bne_iff_ne, ne_eq, reduceCtorEq, not_false_eq_true, if_true] at hleft
  omega

theorem chain_meets (h : Reads term tokens meaning more) (hk : .keyword k ∉ more) (hmeets : Meets term L) :
    Meets (chain k join term) (Chain.ways (.keyword k) tokens L) where
  sound {s m e} hs hp hdeep := by
    rcases bind_eq_error.mp hp with he | ⟨left, l, hleft, he⟩
    · obtain ⟨heq, hopens, ks, hks, ht⟩ := hmeets.sound hs he hdeep
      exact ⟨heq, hopens, ks, ⟨[], ⟨[], rfl⟩, ks, hks, rfl⟩, ht⟩
    · rw [itemBound_bind] at he
      obtain ⟨t, -, ht⟩ := h.sound hleft
      obtain ⟨heq, hopens, _, ⟨_, ⟨items, rfl⟩, ks, hks, rfl⟩, hrest⟩ :=
        moreTerms_meets_sound h hmeets (ht.clean hs) he hdeep
      refine ⟨heq, hopens, _, ⟨_, ⟨t :: items, rfl⟩, ks, hks, rfl⟩, ?_⟩
      simp only [ahead_cons, List.append_assoc, List.cons_append]
      exact ht.append hrest
  complete {s m ks} hks ht hopens := by
    obtain ⟨_, ⟨items, rfl⟩, ks, hks, rfl⟩ := hks
    cases items with
    | nil => exact bind_eq_error.mpr (.inl (hmeets.complete hks ht hopens))
    | cons t items =>
      simp only [ahead_cons, List.append_assoc, List.cons_append] at ht
      obtain ⟨l, ht, hrest⟩ := Takes.append_iff.mp ht
      have hnext : l.current.kind ∉ more := by
        rw [hrest.current_kind]
        exact hk
      refine bind_eq_error.mpr (.inr ⟨_, l, h.complete t ht hnext, ?_⟩)
      rw [itemBound_bind]
      exact moreTerms_meets_complete h hk hmeets (ahead_length_lt hrest) hks hrest hopens

theorem disjunction_meets (h : Reads term tokens meaning []) (hmeets : Meets term L) :
    Meets (disjunction term) (ConditionOf.ways tokens L) :=
  chain_meets (chain_reads h List.not_mem_nil) (by simp) (chain_meets h List.not_mem_nil hmeets)

end Connective

/-! ### Terms and conditions -/

theorem term_meets (levels : Nat) : Meets (term levels) (TermPhrase.ways levels) := by
  induction levels with
  | zero =>
    have hterm : ∀ s, term 0 s = (if (s.current.kind == .keyword .not || s.current.kind == .mark .lparen) = true then
        malformed (.nestedTooDeep maxNesting) else comparison) s := fun _ => rfl
    constructor
    · intro s m e hs hp hdeep
      rw [hterm] at hp
      split at hp
      · next hopens =>
        cases hp
        exact ⟨rfl, by simpa [Opens] using hopens, [], rfl, .none s⟩
      · exact absurd hp (Plain.comparison.error_ne hs hdeep)
    · rintro s m _ rfl ht hopens
      obtain rfl := Takes.nil_iff.mp ht
      rw [hterm, if_pos (by simpa [Opens] using hopens)]
      rfl
  | succ levels ih =>
    have hterm := term_reads levels
    have hnot := ih.bind_plain hterm.clean fun c => Plain.pure (Condition.not c)
    have hgroup := (disjunction_meets hterm ih).bind_plain (disjunction_reads hterm).clean fun c =>
      (Plain.expect (.mark .rparen)).bind fun _ => Plain.pure c
    have hrest := hgroup.ite_accept (k := .mark .lparen) (.of_plain Plain.comparison) fun hks => hks.elim
    rw [add_zero] at hrest
    refine hnot.ite_accept hrest ?_
    rintro s m _ ⟨_, rfl, ks, hks, rfl⟩ ht
    rw [Takes.current_kind ht]
    simp

theorem condition_meets : Meets condition ConditionPhrase.ways := disjunction_meets (term_reads _) (term_meets _)

theorem where_meets : Meets whereClause WhereWays := by
  have hcondition := condition_meets.bind_plain condition_reads.clean fun c => Plain.pure (some c)
  have hwhere := hcondition.ite_accept (k := .keyword .where) (.of_plain (Plain.pure none)) fun hks => hks.elim
  rwa [add_zero] at hwhere

/-! ### Queries -/

section Queries

variable {p : Parser α} {L : Language TokenKind}

/-- A part that reports nothing, read by its phrase where what leads on can follow it. -/
theorem Meets.after {f : α → Parser β} (tokens : τ → List TokenKind) (next : TokenKind → Prop) (hp : Plain p)
    (hf : ∀ a, Meets (f a) L) (hnext : ∀ {l m ks}, ks ∈ L → Takes l ks m → next l.current.kind)
    (hread : ∀ {s l}, next l.current.kind → ((∃ a, p s = .ok a l) ↔ ∃ t, Takes s (tokens t) l)) :
    Meets (p >>= f) (spelled tokens * L) where
  sound {s m e} hs h hdeep := by
    rcases bind_eq_error.mp h with he | ⟨a, l, ha, he⟩
    · exact absurd he (hp.error_ne hs hdeep)
    · obtain ⟨heq, hopens, ks, hks, hrest⟩ := (hf a).sound (hp.ok hs ha) he hdeep
      obtain ⟨t, ht⟩ := (hread (hnext hks hrest)).mp ⟨a, ha⟩
      exact ⟨heq, hopens, _, ⟨_, ⟨t, rfl⟩, ks, hks, rfl⟩, ht.append hrest⟩
  complete {s m ks} hks ht hopens := by
    obtain ⟨_, ⟨t, rfl⟩, ks, hks, rfl⟩ := hks
    obtain ⟨l, ht, hrest⟩ := Takes.append_iff.mp ht
    obtain ⟨a, ha⟩ := (hread (hnext hks hrest)).mpr ⟨t, ht⟩
    exact bind_eq_error.mpr (.inr ⟨a, l, ha, (hf a).complete hks hrest hopens⟩)

theorem Reads.read_iff {tokens : τ → List TokenKind} {meaning : τ → α} {more : List TokenKind}
    (h : Reads p tokens meaning more) {l : ParserState} (hl : l.current.kind ∉ more) :
    (∃ a, p s = .ok a l) ↔ ∃ t, Takes s (tokens t) l := by
  constructor
  · intro ⟨a, ha⟩
    obtain ⟨t, -, ht⟩ := h.sound ha
    exact ⟨t, ht⟩
  · intro ⟨t, ht⟩
    exact ⟨_, h.complete t ht hl⟩

/-- Behind a name. -/
theorem Meets.after_name (what : String) {f : String → Parser β} (hf : ∀ a, Meets (f a) L) :
    Meets (identifier what >>= f) (spelled (fun name : String => [.identifier name]) * L) :=
  .after _ (fun _ => True) (.identifier what) hf (fun _ _ => trivial) fun _ =>
    (name_reads what).read_iff List.not_mem_nil

/-- Behind a keyword. -/
theorem Meets.after_keyword (k : Keyword) {f : Unit → Parser β} (hf : ∀ a, Meets (f a) L) :
    Meets (expectKeyword k >>= f) ({[.keyword k]} * L) := by
  have hafter := Meets.after (fun _ : Unit => [.keyword k]) (fun _ => True) (.expectKeyword k) hf (fun _ _ => trivial)
    fun _ => ⟨fun ⟨_, hp⟩ => ⟨(), expectKeyword_eq_ok.mp hp⟩, fun ⟨_, ht⟩ => ⟨(), expectKeyword_eq_ok.mpr ht⟩⟩
  rwa [show spelled (fun _ : Unit => [TokenKind.keyword k]) = {[.keyword k]} from Set.range_const] at hafter

/-- What leads into a condition starts with its keyword. -/
theorem where_front {ks : List TokenKind} {l : ParserState} (hks : ks ∈ WhereWays) (ht : Takes l ks m) :
    l.current.kind = .keyword .where := by
  obtain ⟨_, rfl, ks, -, rfl⟩ := hks
  exact Takes.current_kind ht

/-- A parser that takes the token in front, whatever it is, and then reports behind ways. -/
def MeetsNext (p : Parser α) (L : Language TokenKind) : Prop := ∃ q : Parser α, p = (advance >>= fun _ => q) ∧ Meets q L

theorem map_eq_error {f : α → β} : (f <$> p) s = .error e m ↔ p s = .error e m := by
  rw [map_eq_pure_bind, bind_eq_error]
  refine ⟨fun h => h.resolve_right ?_, .inl⟩
  rintro ⟨a, l, -, he⟩
  cases he

theorem MeetsNext.sound (h : MeetsNext p L) {f : α → β} (hs : Clean s) (hp : (f <$> p) s = .error e m)
    (hdeep : e.isTooDeep = true) :
    e = tooDeep m ∧ Opens m.current.kind ∧ ∃ ks ∈ L, Takes s (s.current.kind :: ks) m := by
  obtain ⟨q, rfl, hq⟩ := h
  rcases bind_eq_error.mp (map_eq_error.mp hp) with he | ⟨_, l, ha, he⟩
  · exact absurd he (Plain.advance.error_ne hs hdeep)
  · obtain ⟨heq, hopens, ks, hks, ht⟩ := hq.sound (hs.advance_ok ha) he hdeep
    exact ⟨heq, hopens, ks, hks, .token ha ht⟩

theorem MeetsNext.complete (h : MeetsNext p L) (f : α → β) {k : TokenKind} {ks : List TokenKind} (hks : ks ∈ L)
    (ht : Takes s (k :: ks) m) (hopens : Opens m.current.kind) : (f <$> p) s = .error (tooDeep m) m := by
  obtain ⟨q, rfl, hq⟩ := h
  obtain ⟨-, l, ha, ht⟩ := Takes.cons_iff.mp ht
  exact map_eq_error.mpr (bind_eq_error.mpr (.inr ⟨(), l, ha, hq.complete hks ht hopens⟩))

theorem selectQuery_meets : MeetsNext selectQuery (spelled SelectionPhrase.tokens * ({[.keyword .from]} *
    (spelled (fun name : String => [.identifier name]) * WhereWays))) := by
  refine ⟨_, rfl, .after _ (· = .keyword .from) Plain.selection
    (fun fields => .after_keyword .from fun _ => .after_name _ fun entity => ?_) ?_ ?_⟩
  · exact where_meets.bind_plain where_reads.clean fun c => Plain.orderClause.bind fun _ =>
      (Plain.countClause .skip).bind fun _ => (Plain.countClause .limit).bind fun _ => .pure _
  · rintro l m _ ⟨_, rfl, ks, -, rfl⟩ ht
    exact Takes.current_kind ht
  · intro s l hl
    constructor
    · intro ⟨fields, hp⟩
      obtain ⟨t, -, ht⟩ := (selection_eq_ok hl).mp hp
      exact ⟨t, ht⟩
    · intro ⟨t, ht⟩
      exact ⟨_, (selection_eq_ok hl).mpr ⟨t, rfl, ht⟩⟩

theorem updateQuery_meets : MeetsNext updateQuery (spelled (fun name : String => [.identifier name]) *
    ({[.keyword .set]} * (spelled (listTokens AssignmentPhrase.tokens) * WhereWays))) := by
  refine ⟨_, rfl, .after_name _ fun entity => .after_keyword .set fun _ =>
    .after _ (· ∉ [.mark .comma]) (Plain.commaList Plain.assignment) (fun set => ?_) ?_ assignments_reads.read_iff⟩
  · exact where_meets.bind_plain where_reads.clean fun c => .pure _
  · intro l m ks hks ht
    simp [where_front hks ht]

theorem operation_meets : Meets operation QueryPhrase.ways where
  sound {s m e} hs hp hdeep := by
    have hplain : ∀ {p : Parser (Query Operand)}, Plain p → p s ≠ .error e m := fun hp => hp.error_ne hs hdeep
    rw [operation, get_bind] at hp
    cases hk : s.current.kind with
    | keyword k =>
      rw [hk] at hp
      cases k with
      | select =>
        obtain ⟨heq, hopens, ks, hks, ht⟩ := selectQuery_meets.sound hs hp hdeep
        exact ⟨heq, hopens, _, .inl ⟨_, rfl, ks, hks, rfl⟩, hk ▸ ht⟩
      | update =>
        obtain ⟨heq, hopens, ks, hks, ht⟩ := updateQuery_meets.sound hs hp hdeep
        exact ⟨heq, hopens, _, .inr ⟨_, rfl, ks, hks, rfl⟩, hk ▸ ht⟩
      | get => exact absurd hp (hplain ((Plain.keys .get).map _))
      | delete => exact absurd hp (hplain ((Plain.keys .delete).map _))
      | insert => exact absurd hp (hplain (Plain.insertQuery.map _))
      | _ => exact absurd hp (hplain (.query _))
    | endOfInput =>
      rw [hk] at hp
      exact absurd hp (hplain (.query _))
    | identifier name =>
      rw [hk] at hp
      exact absurd hp (hplain (.query _))
    | _ =>
      rw [hk] at hp
      exact absurd hp (hplain (.unexpected _))
  complete {s m ks} hks ht hopens := by
    rw [operation, get_bind]
    rcases hks with ⟨_, rfl, ks, hks, rfl⟩ | ⟨_, rfl, ks, hks, rfl⟩
    · rw [Takes.current_kind ht]
      exact selectQuery_meets.complete Query.select hks ht hopens
    · rw [Takes.current_kind ht]
      exact updateQuery_meets.complete Query.update hks ht hopens

theorem query_meets : Meets query QueryPhrase.ways :=
  operation_meets.bind_plain operation_reads.clean fun q => (Plain.expect .endOfInput).bind fun _ => .pure q

end Queries

/-! ## (3) Calls -/

theorem Fails.clean {p : Parser α} {L : Language TokenKind} (h : Fails p L s e m) (hs : Clean s) : Clean m := by
  cases h with
  | unread _ _ ht _ ha => exact ((ht.clean hs).advance_error ha).1
  | offence _ _ ht _ _ => exact ht.clean hs
  | query _ _ ht _ => exact ht.clean hs

theorem Predicts.clean {p : Parser α} {L : Language TokenKind} (h : Predicts p L s) (hs : Clean s) :
    Clean (leaves (p s)) := by
  cases hp : p s with
  | ok a m =>
    obtain ⟨ks, -, -, ht, -⟩ := h.ok hp
    exact ht.clean hs
  | error e m => exact (h.error hp).clean hs

theorem Plain.clean {p : Parser α} (h : Plain p) (hs : Clean s) : Clean (leaves (p s)) := by
  cases hp : p s with
  | ok a m => exact h.ok hs hp
  | error e m => exact (h.error hs hp).1

theorem query_clean (hs : Clean s) : Clean (leaves (query s)) := by
  have hoperation := (operation_predicts s).clean hs
  show Clean (leaves (EStateM.bind operation (fun q => expect .endOfInput >>= fun _ => pure q) s))
  unfold EStateM.bind
  cases hp : operation s with
  | ok q l =>
    rw [hp] at hoperation
    exact ((Plain.expect .endOfInput).bind fun _ => .pure q).clean hoperation
  | error e l =>
    rw [hp] at hoperation
    exact hoperation

theorem leaves_map (f : α → β) (p : Parser α) (s : ParserState) : leaves ((f <$> p) s) = leaves (p s) := by
  show leaves (EStateM.map f p s) = _
  unfold EStateM.map
  cases p s with
  | ok a m => rfl
  | error e m => rfl

namespace Call

theorem run_clean (c : Call) (hs : Clean s) : Clean (leaves (c.run s)) := by
  cases c with
  | value =>
    rw [run, leaves_map]
    exact Plain.value.clean hs
  | condition =>
    rw [run, leaves_map]
    exact (condition_predicts s).clean hs
  | query =>
    rw [run, leaves_map]
    exact query_clean hs

theorem after_clean (calls : List Call) (hs : Clean s) : Clean (after calls s) := by
  induction calls generalizing s with
  | nil => exact hs
  | cons c calls ih => exact ih (c.run_clean hs)

/-- What leads a call to the start of a term at the limit. -/
def ways : Call → Language TokenKind
  | value => 0
  | condition => ConditionPhrase.ways
  | query => QueryPhrase.ways

theorem run_meets (c : Call) : Meets c.run c.ways := by
  cases c with
  | value => exact .of_plain (Plain.value.map _)
  | condition =>
    rw [run, map_eq_pure_bind]
    exact condition_meets.bind_plain condition_reads.clean fun c => .pure _
  | query =>
    rw [run, map_eq_pure_bind]
    refine query_meets.bind_plain (fun hs hq => ?_) fun q => .pure _
    have hclean := query_clean hs
    rwa [hq] at hclean

end Call

/-- For any text and any calls on its parser, failed ones included: the counter is at zero
    after them, and after one more, and has never been past the limit; and that call
    reports nesting exactly at what opens a level at the start of a term at the limit. -/
theorem nesting_of_calls {text : String} {s₀ : ParserState} (h : start text = .ok s₀) (calls : List Call) (c : Call) :
    ∃ n : Nesting, Call.countedAfter calls (s₀, .initial) = (Call.after calls s₀, n) ∧ n.depth = 0 ∧
      n.peak ≤ maxNesting ∧
      (∃ k : Nesting, c.counted (Call.after calls s₀, n) = beside k (c.run (Call.after calls s₀)) ∧ k.depth = 0 ∧
        k.peak ≤ maxNesting) ∧
      ∀ (limit : Nat) (position : Position) (m : ParserState),
        c.run (Call.after calls s₀) = .error (.malformed (.nestedTooDeep limit) position) m ↔
          limit = maxNesting ∧ position = m.current.position ∧ Opens m.current.kind ∧
            ∃ ks ∈ c.ways, Takes (Call.after calls s₀) ks m := by
  obtain ⟨n, hdepth, hpeak, hcounted⟩ := Call.countedAfter_eq calls s₀ (n := .initial) rfl (Nat.zero_le _)
  obtain ⟨k, hk, hkpeak, hrun⟩ := c.counted_keeps (Call.after calls s₀) n hdepth hpeak
  refine ⟨n, hcounted, hdepth, hpeak, ⟨k, hrun, hk, hkpeak⟩, fun limit position m => ⟨fun he => ?_, ?_⟩⟩
  · obtain ⟨heq, hopens, hways⟩ := c.run_meets.sound (Call.after_clean calls (start_clean h)) he rfl
    obtain ⟨hlimit, hposition⟩ : limit = maxNesting ∧ position = m.current.position := by simpa [tooDeep] using heq
    exact ⟨hlimit, hposition, hopens, hways⟩
  · rintro ⟨rfl, rfl, hopens, ks, hks, ht⟩
    exact c.run_meets.complete hks ht hopens

/-- Brackets alone lead as deep as there are brackets. -/
theorem brackets_mem_ways (levels : Nat) : List.replicate levels (.mark .lparen) ∈ TermPhrase.ways levels := by
  induction levels with
  | zero => rfl
  | succ levels ih =>
    exact .inr ⟨_, rfl, _, ⟨[], ⟨[], rfl⟩, _, ⟨[], ⟨[], rfl⟩, _, ih, rfl⟩, rfl⟩, rfl⟩

/-- Of 129 brackets the last is reported, and the counter is at zero again. -/
theorem nesting_of_calls_brackets :
    ∃ s m, start (String.ofList (List.replicate 129 '(')) = .ok s ∧
      Call.condition.run s = .error (.malformed (.nestedTooDeep 128) m.current.position) m ∧
      m.current.position.offset = 128 ∧ (Call.countedAfter [.condition] (s, .initial)).2.depth = 0 := by
  have htokens : (Token.tokenize (String.ofList (List.replicate 129 '('))).toOption.map
      (·.map fun t => (t.kind, t.position.offset)) =
        some ((List.range 128).map (fun i => (.mark .lparen, i)) ++ [(.mark .lparen, 128), (.endOfInput, 129)]) := by
    decide +kernel
  obtain ⟨ts, hts, hviews⟩ := Option.map_eq_some_iff.mp htokens
  obtain ⟨us, vs, rfl, hus, hvs⟩ := List.map_eq_append_iff.mp hviews
  obtain ⟨t, rest, rfl, hkind, -⟩ := List.map_eq_cons_iff.mp hvs
  obtain ⟨s, hs, hlexed, hreadings⟩ := readings_of_tokenize (except_toOption_eq_some.mp hts)
  rw [List.map_append, List.map_cons] at hreadings
  obtain ⟨m, hm, rfl⟩ := takes_of_readings hlexed hreadings
  have hways : us.map (·.kind) = List.replicate 128 (.mark .lparen) := by
    have hkinds := congrArg (List.map Prod.fst) hus
    rw [List.map_map, List.map_map] at hkinds
    exact hkinds
  obtain ⟨-, -, -, -, -, hreport⟩ := nesting_of_calls hs [] .condition
  obtain ⟨n, hcounted, hdepth, -⟩ := nesting_of_calls hs [.condition] .condition
  refine ⟨s, m, hs, (hreport 128 _ m).mpr ⟨rfl, rfl, .inr (congrArg Prod.fst hkind), _, ?_, hm⟩,
    congrArg Prod.snd hkind, by rw [hcounted, hdepth]⟩
  rw [hways]
  exact ⟨[], ⟨[], rfl⟩, _, ⟨[], ⟨[], rfl⟩, _, brackets_mem_ways 128, rfl⟩, rfl⟩

end Parser

end EntityQuery
