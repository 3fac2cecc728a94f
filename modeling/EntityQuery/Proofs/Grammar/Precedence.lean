/-
  EntityQuery.Proofs.Grammar.Precedence — conditions as binary expressions.

  A sequence of tokens is read as an expression by precedence: a negation binds
  tighter than a conjunction, a conjunction tighter than a disjunction, both group
  from the left, and brackets override (`Spells`). There is never more than one such
  expression (`spells_unique`): it comes from a phrase, and phrases are unambiguous
  however deep they lie.

  What the parser makes of the tokens joins chains into single nodes, also across the
  brackets of a left operand. It is the expression's own condition
  (`conditionOf_expression`), which has the expression's leaves in order
  (`condition_leaves`) and its truth value (`condition_truth`).
-/

import EntityQuery.Proofs.Grammar.Parsing
import EntityQuery.Proofs.Grammar.Unambiguous
import EntityQuery.Proofs.Truth

namespace EntityQuery

/-! ## Expressions -/

inductive Expression where
  | comparison (c : ComparisonPhrase)
  | not (e : Expression)
  | and (l r : Expression)
  | or (l r : Expression)

namespace Expression

/-- The comparisons from left to right. -/
def leaves : Expression → List (Condition Operand)
  | comparison c => [c.condition]
  | not e => e.leaves
  | and l r => l.leaves ++ r.leaves
  | or l r => l.leaves ++ r.leaves

def truth (v : Verdicts) : Expression → Bool
  | comparison _ => v 0
  | not e => !e.truth v
  | and l r => l.truth v && r.truth (v.after l.leaves.length)
  | or l r => l.truth v || r.truth (v.after l.leaves.length)

/-- The condition that joins what the parts stand for. -/
def condition : Expression → Condition Operand
  | comparison c => c.condition
  | not e => .not e.condition
  | and l r => l.condition.and r.condition
  | or l r => l.condition.or r.condition

/-- How tight the outermost connective of an expression binds. -/
inductive Level where
  | disjunction
  | conjunction
  | term

/-- Which tokens spell an expression, by precedence. -/
inductive Spells : Level → Expression → List TokenKind → Prop
  | or {l r : Expression} {ks ls : List TokenKind} : Spells .disjunction l ks → Spells .conjunction r ls →
      Spells .disjunction (.or l r) (ks ++ .keyword .or :: ls)
  | conjunction {e : Expression} {ks : List TokenKind} : Spells .conjunction e ks → Spells .disjunction e ks
  | and {l r : Expression} {ks ls : List TokenKind} : Spells .conjunction l ks → Spells .term r ls →
      Spells .conjunction (.and l r) (ks ++ .keyword .and :: ls)
  | term {e : Expression} {ks : List TokenKind} : Spells .term e ks → Spells .conjunction e ks
  | not {e : Expression} {ks : List TokenKind} : Spells .term e ks → Spells .term (.not e) (.keyword .not :: ks)
  | brackets {e : Expression} {ks : List TokenKind} : Spells .disjunction e ks →
      Spells .term e (.mark .lparen :: (ks ++ [.mark .rparen]))
  | comparison (c : ComparisonPhrase) : Spells .term (.comparison c) c.tokens

/-! ## An expression's condition -/

theorem comparison_leaves (c : ComparisonPhrase) : c.condition.leaves = [c.condition] := by
  obtain ⟨field, p⟩ := c
  cases p <;> rfl

theorem comparison_truth (v : Verdicts) (c : ComparisonPhrase) : c.condition.truth v = v 0 := by
  obtain ⟨field, p⟩ := c
  cases p <;> rfl

theorem condition_leaves (e : Expression) : e.condition.leaves = e.leaves := by
  induction e with
  | comparison c => exact comparison_leaves c
  | not e ih => simpa [condition, leaves, Condition.leaves] using ih
  | and l r ihl ihr => simp [condition, leaves, ihl, ihr]
  | or l r ihl ihr => simp [condition, leaves, ihl, ihr]

theorem condition_truth (v : Verdicts) (e : Expression) : e.condition.truth v = e.truth v := by
  induction e generalizing v with
  | comparison c => exact comparison_truth v c
  | not e ih => simp [condition, truth, Condition.truth, ih]
  | and l r ihl ihr => simp [condition, truth, Condition.truth_and, ihl, ihr, condition_leaves]
  | or l r ihl ihr => simp [condition, truth, Condition.truth_or, ihl, ihr, condition_leaves]

end Expression

/-! ## The expression of a phrase -/

def ConditionOf.expression {τ : Type} (inner : τ → Expression) (c : ConditionOf τ) : Expression :=
  Chain.joined .or (Chain.joined .and inner) c

def TermOver.expression {τ : Type} (inner : τ → Expression) : TermOver τ → Expression
  | comparison c => .comparison c
  | not t => .not (inner t)
  | group c => c.expression inner

def TermPhrase.expression : (levels : Nat) → TermPhrase levels → Expression
  | 0 => TermOver.expression Empty.elim
  | levels + 1 => TermOver.expression (expression levels)

section Expression

open Expression (Level Spells)

variable {τ : Type} {tokens : τ → List TokenKind} {inner : τ → Expression} {meaning : τ → Condition Operand}

theorem joined_condition {join : Expression → Expression → Expression}
    {joinConditions : Condition Operand → Condition Operand → Condition Operand}
    (hj : ∀ l r, (join l r).condition = joinConditions l.condition r.condition)
    (h : ∀ t, (inner t).condition = meaning t) (c : Chain τ) :
    (c.joined join inner).condition = c.joined joinConditions meaning := by
  obtain ⟨head, tail⟩ := c
  show ((tail.map inner).foldl join (inner head)).condition = (tail.map meaning).foldl joinConditions (meaning head)
  rw [← h head]
  generalize inner head = e
  induction tail generalizing e with
  | nil => rfl
  | cons t tail ih => simp only [List.map_cons, List.foldl_cons, ih, hj, h]

theorem conditionOf_expression (h : ∀ t, (inner t).condition = meaning t) (c : ConditionOf τ) :
    (c.expression inner).condition = c.condition meaning :=
  joined_condition (fun _ _ => rfl) (joined_condition (fun _ _ => rfl) h) c

theorem termOver_expression (h : ∀ t, (inner t).condition = meaning t) (t : TermOver τ) :
    (t.expression inner).condition = t.condition meaning := by
  cases t with
  | comparison c => rfl
  | not t => exact congrArg Condition.not (h t)
  | group c => exact conditionOf_expression h c

theorem term_expression (levels : Nat) (t : TermPhrase levels) :
    (t.expression levels).condition = t.condition levels := by
  induction levels with
  | zero => exact termOver_expression (fun t => nomatch t) t
  | succ levels ih => exact termOver_expression ih t

/-! ## The tokens of a phrase spell its expression -/

theorem chain_spells {k : Keyword} {join : Expression → Expression → Expression} {loose tight : Level}
    (hj : ∀ {l r ks ls}, Spells loose l ks → Spells tight r ls → Spells loose (join l r) (ks ++ .keyword k :: ls))
    (hup : ∀ {e ks}, Spells tight e ks → Spells loose e ks) (h : ∀ t, Spells tight (inner t) (tokens t))
    (c : Chain τ) : Spells loose (c.joined join inner) (c.tokens (.keyword k) tokens) := by
  obtain ⟨head, tail⟩ := c
  have hhead := hup (h head)
  show Spells loose ((tail.map inner).foldl join (inner head)) (tokens head ++ Chain.further (.keyword k) tokens tail)
  generalize inner head = e at hhead
  generalize tokens head = ks at hhead
  induction tail generalizing e ks with
  | nil => simpa [Chain.further] using hhead
  | cons t tail ih =>
    have hnext := ih _ _ (hj hhead (h t))
    simpa [Chain.further] using hnext

theorem conditionOf_spells (h : ∀ t, Spells .term (inner t) (tokens t)) (c : ConditionOf τ) :
    Spells .disjunction (c.expression inner) (c.tokens tokens) :=
  chain_spells .or .conjunction (chain_spells .and .term h) c

theorem termOver_spells (h : ∀ t, Spells .term (inner t) (tokens t)) (t : TermOver τ) :
    Spells .term (t.expression inner) (t.tokens tokens) := by
  cases t with
  | comparison c => exact .comparison c
  | not t => exact .not (h t)
  | group c => exact .brackets (conditionOf_spells h c)

theorem term_spells (levels : Nat) (t : TermPhrase levels) : Spells .term (t.expression levels) (t.tokens levels) := by
  induction levels with
  | zero => exact termOver_spells (fun t => nomatch t) t
  | succ levels ih => exact termOver_spells ih t

end Expression

/-! ## Every spelling is that of a phrase -/

namespace Chain

variable {α β : Type}

/-- One more item at the end. -/
def snoc (c : Chain α) (a : α) : Chain α := ⟨c.head, c.tail ++ [a]⟩

theorem tokens_snoc (separator : TokenKind) (tokens : α → List TokenKind) (c : Chain α) (a : α) :
    (c.snoc a).tokens separator tokens = c.tokens separator tokens ++ separator :: tokens a := by
  simp [snoc, Chain.tokens, further]

theorem joined_snoc (join : β → β → β) (meaning : α → β) (c : Chain α) (a : α) :
    (c.snoc a).joined join meaning = join (c.joined join meaning) (meaning a) := by
  simp [snoc, joined]

end Chain

namespace Expression

/-- Tokens and expression of a phrase with at most so many levels. -/
def Phrased (levels : Nat) : Level → Expression → List TokenKind → Prop
  | .disjunction, e, ks => ∃ c : ConditionOf (TermPhrase levels),
    c.tokens (TermPhrase.tokens levels) = ks ∧ c.expression (TermPhrase.expression levels) = e
  | .conjunction, e, ks => ∃ c : Chain (TermPhrase levels),
    c.tokens (.keyword .and) (TermPhrase.tokens levels) = ks ∧ c.joined .and (TermPhrase.expression levels) = e
  | .term, e, ks => ∃ t : TermPhrase levels, t.tokens levels = ks ∧ t.expression levels = e

theorem phrased_of_spells {level : Level} {e : Expression} {ks : List TokenKind} (h : Spells level e ks) :
    ∃ least, ∀ levels, least ≤ levels → Phrased levels level e ks := by
  induction h with
  | or _ _ ihl ihr =>
    obtain ⟨n, hn⟩ := ihl
    obtain ⟨m, hm⟩ := ihr
    refine ⟨max n m, fun levels hle => ?_⟩
    obtain ⟨c, rfl, rfl⟩ := hn levels (by omega)
    obtain ⟨d, rfl, rfl⟩ := hm levels (by omega)
    exact ⟨c.snoc d, Chain.tokens_snoc _ _ c d, Chain.joined_snoc _ _ c d⟩
  | conjunction _ ih =>
    obtain ⟨n, hn⟩ := ih
    refine ⟨n, fun levels hle => ?_⟩
    obtain ⟨c, rfl, rfl⟩ := hn levels hle
    exact ⟨⟨c, []⟩, by simp [ConditionOf.tokens, Chain.tokens, Chain.further], rfl⟩
  | and _ _ ihl ihr =>
    obtain ⟨n, hn⟩ := ihl
    obtain ⟨m, hm⟩ := ihr
    refine ⟨max n m, fun levels hle => ?_⟩
    obtain ⟨c, rfl, rfl⟩ := hn levels (by omega)
    obtain ⟨t, rfl, rfl⟩ := hm levels (by omega)
    exact ⟨c.snoc t, Chain.tokens_snoc _ _ c t, Chain.joined_snoc _ _ c t⟩
  | term _ ih =>
    obtain ⟨n, hn⟩ := ih
    refine ⟨n, fun levels hle => ?_⟩
    obtain ⟨t, rfl, rfl⟩ := hn levels hle
    exact ⟨⟨t, []⟩, by simp [Chain.tokens, Chain.further], rfl⟩
  | not _ ih =>
    obtain ⟨n, hn⟩ := ih
    refine ⟨n + 1, fun levels hle => ?_⟩
    obtain ⟨k, rfl⟩ : ∃ k, levels = k + 1 := ⟨levels - 1, by omega⟩
    obtain ⟨t, rfl, rfl⟩ := hn k (by omega)
    exact ⟨TermOver.not t, rfl, rfl⟩
  | brackets _ ih =>
    obtain ⟨n, hn⟩ := ih
    refine ⟨n + 1, fun levels hle => ?_⟩
    obtain ⟨k, rfl⟩ : ∃ k, levels = k + 1 := ⟨levels - 1, by omega⟩
    obtain ⟨c, rfl, rfl⟩ := hn k (by omega)
    exact ⟨TermOver.group c, rfl, rfl⟩
  | comparison c =>
    refine ⟨0, fun levels _ => ?_⟩
    cases levels with
    | zero => exact ⟨TermOver.comparison c, rfl, rfl⟩
    | succ k => exact ⟨TermOver.comparison c, rfl, rfl⟩

/-- Tokens spell one expression at most. -/
theorem spells_unique {e e' : Expression} {ks : List TokenKind} (h : Spells .disjunction e ks)
    (h' : Spells .disjunction e' ks) : e = e' := by
  obtain ⟨n, hn⟩ := phrased_of_spells h
  obtain ⟨m, hm⟩ := phrased_of_spells h'
  obtain ⟨c, rfl, rfl⟩ := hn (max n m) (by omega)
  obtain ⟨d, hd, rfl⟩ := hm (max n m) (by omega)
  rw [(conditionOf_unambiguous (term_unambiguous (max n m))).injective hd]

end Expression

/-! ## Conditions keep the meaning of their expressions -/

/-- What the parser accepts as a condition is spelled by one expression, and has its
    leaves and its truth value; so has what it resolves to, when an entity is tested.
    Joining conditions is `&&`, `||` and `!` on tests, and keeps the operands in order. -/
theorem condition_by_precedence :
    (∀ (s s' : ParserState) (c : Condition Operand), Parser.condition s = .ok c s' →
      ∃ (ks : List TokenKind) (e : Expression), Parser.Takes s ks s' ∧ Expression.Spells .disjunction e ks ∧
        (∀ e', Expression.Spells .disjunction e' ks → e' = e) ∧
        c.leaves = e.leaves ∧ (∀ v : Verdicts, c.truth v = e.truth v) ∧
        ∀ (field : String → String) (value : Operand → Except QueryError Value) (d : Condition Value),
          c.substitute field value = .ok d →
            d.leaves.map Condition.shape = e.leaves.map (·.map field fun _ => ()) ∧
            ∀ patterns entity,
              Filter.test patterns entity d = e.truth (Filter.verdicts patterns entity d.leaves)) ∧
    (∀ (l r : Condition Value) patterns entity,
      Filter.test patterns entity (l.and r) = (Filter.test patterns entity l && Filter.test patterns entity r) ∧
      Filter.test patterns entity (l.or r) = (Filter.test patterns entity l || Filter.test patterns entity r) ∧
      Filter.test patterns entity (.not l) = !Filter.test patterns entity l) ∧
    (∀ (V : Type) (l r : Condition V),
      (∀ v, (l.and r).truth v = (l.truth v && r.truth (v.after l.leaves.length)) ∧
        (l.or r).truth v = (l.truth v || r.truth (v.after l.leaves.length)) ∧
        (Condition.not l).truth v = !l.truth v) ∧
      (l.and r).leaves = l.leaves ++ r.leaves ∧ (l.and r).values = l.values ++ r.values ∧
      (l.or r).leaves = l.leaves ++ r.leaves ∧ (l.or r).values = l.values ++ r.values ∧
      (Condition.not l).leaves = l.leaves ∧ (Condition.not l).values = l.values) := by
  refine ⟨?_, fun l r patterns entity => ?_, fun V l r => ?_⟩
  · intro s s' c h
    obtain ⟨p, rfl, htakes⟩ := Parser.condition_reads.sound h
    let e := ConditionOf.expression (TermPhrase.expression Parser.maxNesting) p
    have hspells : Expression.Spells .disjunction e p.tokens := conditionOf_spells (term_spells _) p
    have hcondition : e.condition = p.condition := conditionOf_expression (term_expression _) p
    refine ⟨p.tokens, e, htakes, hspells, fun e' h' => Expression.spells_unique h' hspells, ?_, ?_, ?_⟩
    · rw [← hcondition, Expression.condition_leaves]
    · intro v
      rw [← hcondition, Expression.condition_truth]
    · intro field value d hd
      have hshape := Condition.shape_substitute hd
      constructor
      · rw [← Expression.condition_leaves, hcondition, ← Condition.leaves_map, ← hshape]
        exact (Condition.leaves_map _ _ d).symm
      · intro patterns entity
        rw [Filter.test_eq_truth, Condition.truth_of_shape field hshape, ← hcondition, Expression.condition_truth]
  · exact ⟨Filter.test_and patterns entity l r, Filter.test_or patterns entity l r, by simp [Filter.test]⟩
  · refine ⟨fun v => ⟨Condition.truth_and v l r, Condition.truth_or v l r, by simp [Condition.truth]⟩, ?_⟩
    exact ⟨Condition.leaves_and l r, Condition.values_and l r, Condition.leaves_or l r, Condition.values_or l r,
      by simp [Condition.leaves], by simp [Condition.values]⟩

/-- A parser on `not a = null or b = null`. -/
def nullTests : ParserState :=
  let token (kind : TokenKind) : Token := ⟨kind, "", .start⟩
  ⟨token (.keyword .not), ⟨[.ok (token (.identifier "a")), .ok (token (.mark .eq)), .ok (token (.keyword .null)),
    .ok (token (.keyword .or)), .ok (token (.identifier "b")), .ok (token (.mark .eq)), .ok (token (.keyword .null))],
    .atEnd .start⟩⟩

theorem condition_by_precedence_nullTests : ∃ (c : Condition Operand) (s' : ParserState),
    Parser.condition nullTests = .ok c s' ∧ ∃ (ks : List TokenKind) (e : Expression),
      Parser.Takes nullTests ks s' ∧ Expression.Spells .disjunction e ks ∧ ∀ v : Verdicts, c.truth v = e.truth v := by
  obtain ⟨ks, e, htakes, hspells, -, -, htruth, -⟩ := condition_by_precedence.1 nullTests _ _ rfl
  exact ⟨_, _, rfl, ks, e, htakes, hspells, htruth⟩

end EntityQuery
