/-
  EntityQuery.Proofs.Grammar.Counting — parsing with a counter of what is open.

  (1) The parser knows how many negations and brackets may still be opened by the level
  of the term it reads. Here it counts the open ones instead: the counter goes up where
  a term opens one, fails there at the limit, and comes down again however what was
  opened ends (`nested`). The peak is the highest that the counter has been.

  (2) At any depth the counting parser answers as the other one does with the levels
  that are left, and leaves the counter where it found it, at no more than the limit
  (`Keeps`, `term_keeps`).

  (3) So over any calls on one parser, failed ones included, the counter is back at zero
  after each (`Call.countedAfter_eq`).
-/

import EntityQuery.Proofs.Grammar.Prediction

namespace EntityQuery.Parser

variable {α β : Type} {s m : ParserState}

/-! ## (1) Counting -/

/-- How many negations and brackets are open, and the most that have been. -/
structure Nesting where
  depth : Nat
  peak : Nat

namespace Nesting

def initial : Nesting := ⟨0, 0⟩

def enter (n : Nesting) : Nesting := ⟨n.depth + 1, max n.peak (n.depth + 1)⟩

def leave (n : Nesting) : Nesting := ⟨n.depth - 1, n.peak⟩

end Nesting

abbrev Counting := EStateM QueryError (ParserState × Nesting)

/-- What a parser gives, beside a counter. -/
def beside (n : Nesting) : EStateM.Result QueryError ParserState α → EStateM.Result QueryError (ParserState × Nesting) α
  | .ok a m => .ok a (m, n)
  | .error e m => .error e (m, n)

namespace Counting

/-- A parser that leaves the counter alone. -/
def plain (p : Parser α) : Counting α := fun (s, n) => beside n (p s)

/-- One level down, failing at the token in front where there is no more level. -/
def nested (p : Counting α) : Counting α := fun (s, n) =>
  if maxNesting ≤ n.depth then .error (.malformed (.nestedTooDeep maxNesting) s.current.position) (s, n)
  else
    match p (s, n.enter) with
    | .ok a (m, k) => .ok a (m, k.leave)
    | .error e (m, k) => .error e (m, k.leave)

def moreTerms (k : Keyword) (join : Condition Operand → Condition Operand → Condition Operand)
    (term : Counting (Condition Operand)) : Nat → Condition Operand → Counting (Condition Operand)
  | 0, left => pure left
  | bound + 1, left => do
    if ← plain (acceptKeyword k) then
      let right ← term
      moreTerms k join term bound (join left right)
    else pure left

def chain (k : Keyword) (join : Condition Operand → Condition Operand → Condition Operand)
    (term : Counting (Condition Operand)) : Counting (Condition Operand) := do
  let left ← term
  moreTerms k join term (← plain itemBound) left

def disjunction (term : Counting (Condition Operand)) : Counting (Condition Operand) :=
  chain .or .or (chain .and .and term)

/-- A term. The fuel is never used up: the counter reaches the limit before. -/
def term : Nat → Counting (Condition Operand)
  | 0 => plain comparison
  | fuel + 1 => do
    if ← plain (isKind (.keyword .not)) then
      nested do
        plain advance
        pure (.not (← term fuel))
    else if ← plain (isKind (.mark .lparen)) then
      nested do
        plain advance
        let c ← disjunction (term fuel)
        plain (expectMark .rparen)
        pure c
    else plain comparison

def condition : Counting (Condition Operand) := disjunction (term (maxNesting + 1))

def whereClause : Counting (Option (Condition Operand)) := do
  if ← plain (acceptKeyword .where) then
    pure (some (← condition))
  else pure none

def selectQuery : Counting (SelectQuery Operand) := do
  plain advance
  let fields ← plain selection
  plain (expectKeyword .from)
  let entity ← plain (identifier "an entity name")
  let condition ← whereClause
  let sorts ← plain orderClause
  let skip ← plain (countClause .skip)
  let limit ← plain (countClause .limit)
  pure ⟨entity, fields, condition, sorts, skip, limit⟩

def updateQuery : Counting (UpdateQuery Operand) := do
  plain advance
  let entity ← plain (identifier "an entity name")
  plain (expectKeyword .set)
  let set ← plain (commaList assignment)
  pure ⟨entity, set, ← whereClause⟩

/-- An operation. Only those with a condition count. -/
def operation : Counting (Query Operand) := do
  match (← get).1.current.kind with
  | .keyword .select => .select <$> selectQuery
  | .keyword .update => .update <$> updateQuery
  | _ => plain Parser.operation

def query : Counting (Query Operand) := do
  let q ← operation
  plain (expect .endOfInput)
  pure q

end Counting

/-! ## (2) The same answers -/

/-- At a depth, a counting parser answers as another parser does, and leaves the counter
    at that depth, never past the limit. -/
def Keeps (q : Counting α) (p : Parser α) (depth : Nat) : Prop :=
  ∀ (s : ParserState) (n : Nesting), n.depth = depth → n.peak ≤ maxNesting →
    ∃ k : Nesting, k.depth = depth ∧ k.peak ≤ maxNesting ∧ q (s, n) = beside k (p s)

namespace Keeps

variable {p : Parser α} {q : Counting α} {depth : Nat}

theorem plain (p : Parser α) (depth : Nat) : Keeps (Counting.plain p) p depth :=
  fun _ n hdepth hpeak => ⟨n, hdepth, hpeak, rfl⟩

theorem pure (a : α) (depth : Nat) : Keeps (pure a) (pure a) depth := fun _ n hdepth hpeak => ⟨n, hdepth, hpeak, rfl⟩

theorem bind {f : α → Parser β} {g : α → Counting β} (h : Keeps q p depth) (hf : ∀ a, Keeps (g a) (f a) depth) :
    Keeps (q >>= g) (p >>= f) depth := by
  intro s n hdepth hpeak
  obtain ⟨k, hk, hkpeak, heq⟩ := h s n hdepth hpeak
  show ∃ k : Nesting, _ ∧ _ ∧ EStateM.bind q g (s, n) = beside k (EStateM.bind p f s)
  unfold EStateM.bind
  cases hp : p s with
  | ok a m =>
    rw [hp] at heq
    obtain ⟨l, hl, hlpeak, hrest⟩ := hf a m k hk hkpeak
    exact ⟨l, hl, hlpeak, by rw [heq]; exact hrest⟩
  | error e m =>
    rw [hp] at heq
    exact ⟨k, hk, hkpeak, by rw [heq]; rfl⟩

theorem map (h : Keeps q p depth) (f : α → β) : Keeps (f <$> q) (f <$> p) depth := by
  rw [map_eq_pure_bind, map_eq_pure_bind]
  exact h.bind fun a => .pure (f a) depth

theorem ite {p₁ p₂ : Parser α} {q₁ q₂ : Counting α} (h₁ : Keeps q₁ p₁ depth) (h₂ : Keeps q₂ p₂ depth) (b : Bool) :
    Keeps (if b = true then q₁ else q₂) (if b = true then p₁ else p₂) depth := by
  cases b with
  | true => exact h₁
  | false => exact h₂

/-- What is opened is closed again, however it ends. -/
theorem nested (hroom : depth < maxNesting) (h : Keeps q p (depth + 1)) : Keeps (Counting.nested q) p depth := by
  intro s n hdepth hpeak
  obtain ⟨k, hk, hkpeak, heq⟩ := h s n.enter (by simp [Nesting.enter, hdepth])
    (by simp only [Nesting.enter]; omega)
  refine ⟨k.leave, by simp [Nesting.leave, hk], hkpeak, ?_⟩
  rw [Counting.nested, if_neg (by omega), heq]
  cases p s with
  | ok a m => rfl
  | error e m => rfl

theorem nested_full (q : Counting α) :
    Keeps (Counting.nested q) (malformed (.nestedTooDeep maxNesting)) maxNesting := by
  intro s n hdepth hpeak
  refine ⟨n, hdepth, hpeak, ?_⟩
  rw [Counting.nested, if_pos (by omega)]
  rfl

end Keeps

section Connectives

variable {p : Parser (Condition Operand)} {q : Counting (Condition Operand)} {depth : Nat}
  {k : Keyword} {join : Condition Operand → Condition Operand → Condition Operand}

theorem moreTerms_keeps (h : Keeps q p depth) (bound : Nat) (left : Condition Operand) :
    Keeps (Counting.moreTerms k join q bound left) (moreTerms k join p bound left) depth := by
  induction bound generalizing left with
  | zero => exact .pure left depth
  | succ bound ih =>
    refine (Keeps.plain (acceptKeyword k) depth).bind fun b => ?_
    exact .ite (h.bind fun right => ih (join left right)) (.pure left depth) b

theorem chain_keeps (h : Keeps q p depth) : Keeps (Counting.chain k join q) (chain k join p) depth :=
  h.bind fun left => (Keeps.plain itemBound depth).bind fun bound => moreTerms_keeps h bound left

theorem disjunction_keeps (h : Keeps q p depth) : Keeps (Counting.disjunction q) (disjunction p) depth :=
  chain_keeps (chain_keeps h)

end Connectives

theorem accept_bind_eq (kind : TokenKind) (f : Bool → Parser β) :
    (accept kind >>= f) = isKind kind >>= fun b => if b = true then advance >>= fun _ => f true else f false := by
  funext s
  show _ = (if (s.current.kind == kind) = true then advance >>= fun _ => f true else f false) s
  by_cases hk : s.current.kind = kind
  · rw [accept_bind_of_eq hk, if_pos (beq_iff_eq.mpr hk)]
  · rw [accept_bind_of_ne hk, if_neg (by simpa using hk)]

/-- Where no level is left, neither a negation nor a bracket can be opened. -/
theorem term_zero_eq : term 0 =
    isKind (.keyword .not) >>= fun b => if b = true then malformed (.nestedTooDeep maxNesting) else
      isKind (.mark .lparen) >>= fun b => if b = true then malformed (.nestedTooDeep maxNesting) else comparison := by
  funext s
  show (if (s.current.kind == .keyword .not || s.current.kind == .mark .lparen) = true then
      malformed (.nestedTooDeep maxNesting) else comparison) s =
    (if (s.current.kind == .keyword .not) = true then malformed (.nestedTooDeep maxNesting) else fun s =>
      (if (s.current.kind == .mark .lparen) = true then malformed (.nestedTooDeep maxNesting) else comparison) s) s
  cases s.current.kind == .keyword .not with
  | true => rfl
  | false => rfl

theorem term_succ_eq (levels : Nat) : term (levels + 1) =
    isKind (.keyword .not) >>= fun b =>
      if b = true then advance >>= fun _ => term levels >>= fun t => pure (.not t) else
      isKind (.mark .lparen) >>= fun b => if b = true then advance >>= fun _ => disjunction (term levels) >>= fun c =>
        expectMark .rparen >>= fun _ => pure c else comparison := by
  rw [term, acceptKeyword, accept_bind_eq]
  simp only [if_true, accept_bind_eq, Bool.false_eq_true, if_false]

/-- Counting the open ones is knowing how many may still be opened. -/
theorem term_keeps {fuel depth : Nat} (hdepth : depth ≤ maxNesting) (hfuel : maxNesting < fuel + depth) :
    Keeps (Counting.term fuel) (term (maxNesting - depth)) depth := by
  induction fuel generalizing depth with
  | zero => omega
  | succ fuel ih =>
    rcases Nat.eq_or_lt_of_le hdepth with rfl | hroom
    · rw [Nat.sub_self, term_zero_eq]
      refine (Keeps.plain _ _).bind fun b => .ite (.nested_full _) ?_ b
      exact (Keeps.plain _ _).bind fun b => .ite (.nested_full _) (.plain _ _) b
    · obtain ⟨levels, hlevels⟩ : ∃ levels, maxNesting - depth = levels + 1 := ⟨maxNesting - depth - 1, by omega⟩
      have hinner : Keeps (Counting.term fuel) (term levels) (depth + 1) := by
        have hstep : Keeps (Counting.term fuel) (term (maxNesting - (depth + 1))) (depth + 1) := ih hroom (by omega)
        rwa [show maxNesting - (depth + 1) = levels by omega] at hstep
      rw [hlevels, term_succ_eq]
      refine (Keeps.plain _ _).bind fun b => .ite (.nested hroom ?_) ?_ b
      · exact (Keeps.plain advance _).bind fun _ => hinner.bind fun t => .pure _ _
      refine (Keeps.plain _ _).bind fun b => .ite (.nested hroom ?_) (.plain _ _) b
      exact (Keeps.plain advance _).bind fun _ => (disjunction_keeps hinner).bind fun _ =>
        (Keeps.plain _ _).bind fun _ => .pure _ _

theorem condition_keeps : Keeps Counting.condition condition 0 :=
  disjunction_keeps (term_keeps (Nat.zero_le _) (Nat.lt_succ_self _))

theorem whereClause_keeps : Keeps Counting.whereClause whereClause 0 :=
  (Keeps.plain _ _).bind fun b => .ite (condition_keeps.bind fun _ => .pure _ _) (.pure _ _) b

theorem selectQuery_keeps : Keeps Counting.selectQuery selectQuery 0 :=
  (Keeps.plain _ _).bind fun _ => (Keeps.plain _ _).bind fun _ => (Keeps.plain _ _).bind fun _ =>
    (Keeps.plain _ _).bind fun _ => whereClause_keeps.bind fun _ => (Keeps.plain _ _).bind fun _ =>
      (Keeps.plain _ _).bind fun _ => (Keeps.plain _ _).bind fun _ => .pure _ _

theorem updateQuery_keeps : Keeps Counting.updateQuery updateQuery 0 :=
  (Keeps.plain _ _).bind fun _ => (Keeps.plain _ _).bind fun _ => (Keeps.plain _ _).bind fun _ =>
    (Keeps.plain _ _).bind fun _ => whereClause_keeps.bind fun _ => .pure _ _

theorem operation_keeps : Keeps Counting.operation operation 0 := by
  intro s n hdepth hpeak
  have hcounting : Counting.operation (s, n) = (match s.current.kind with
      | .keyword .select => Query.select <$> Counting.selectQuery
      | .keyword .update => Query.update <$> Counting.updateQuery
      | _ => Counting.plain operation) (s, n) := rfl
  rw [hcounting]
  cases hk : s.current.kind with
  | keyword k =>
    cases k with
    | select =>
      have hrun : operation s = (Query.select <$> selectQuery) s := by rw [operation, get_bind, hk]
      rw [hrun]
      exact selectQuery_keeps.map _ s n hdepth hpeak
    | update =>
      have hrun : operation s = (Query.update <$> updateQuery) s := by rw [operation, get_bind, hk]
      rw [hrun]
      exact updateQuery_keeps.map _ s n hdepth hpeak
    | _ => exact Keeps.plain _ _ s n hdepth hpeak
  | _ => exact Keeps.plain _ _ s n hdepth hpeak

theorem query_keeps : Keeps Counting.query query 0 :=
  operation_keeps.bind fun _ => (Keeps.plain _ _).bind fun _ => .pure _ _

/-! ## (3) Calls -/

inductive Call where
  | value
  | condition
  | query

inductive Answer where
  | value (o : Operand)
  | condition (c : Condition Operand)
  | query (q : Query Operand)

/-- The state that a parser leaves behind, also by failing. -/
def leaves {σ : Type} : EStateM.Result QueryError σ α → σ
  | .ok _ m => m
  | .error _ m => m

namespace Call

def run : Call → Parser Answer
  | value => .value <$> Parser.value
  | condition => .condition <$> Parser.condition
  | query => .query <$> Parser.query

def counted : Call → Counting Answer
  | value => .value <$> Counting.plain Parser.value
  | condition => .condition <$> Counting.condition
  | query => .query <$> Counting.query

/-- The parser after some calls, failed ones included. -/
def after (calls : List Call) (s : ParserState) : ParserState := calls.foldl (fun s c => leaves (c.run s)) s

/-- The same, with the counter. -/
def countedAfter (calls : List Call) (s : ParserState × Nesting) : ParserState × Nesting :=
  calls.foldl (fun s c => leaves (c.counted s)) s

theorem counted_keeps (c : Call) : Keeps c.counted c.run 0 := by
  cases c with
  | value => exact (Keeps.plain _ _).map _
  | condition => exact condition_keeps.map _
  | query => exact query_keeps.map _

theorem leaves_beside (n : Nesting) (r : EStateM.Result QueryError ParserState α) :
    leaves (beside n r) = (leaves r, n) := by
  cases r with
  | ok a m => rfl
  | error e m => rfl

theorem countedAfter_eq (calls : List Call) (s : ParserState) {n : Nesting} (hdepth : n.depth = 0)
    (hpeak : n.peak ≤ maxNesting) :
    ∃ k : Nesting, k.depth = 0 ∧ k.peak ≤ maxNesting ∧ countedAfter calls (s, n) = (after calls s, k) := by
  induction calls generalizing s n with
  | nil => exact ⟨n, hdepth, hpeak, rfl⟩
  | cons c calls ih =>
    obtain ⟨k, hk, hkpeak, heq⟩ := c.counted_keeps s n hdepth hpeak
    obtain ⟨l, hl, hlpeak, hrest⟩ := ih (leaves (c.run s)) hk hkpeak
    refine ⟨l, hl, hlpeak, ?_⟩
    rw [countedAfter, List.foldl_cons, heq, leaves_beside]
    exact hrest

end Call

end EntityQuery.Parser
