/-
  EntityQuery.Proofs.Grammar.Unambiguous — a sequence of tokens spells at most one
  query (`query_unambiguous`).

  A kind of phrase is unambiguous when its tokens, with others after them, show where
  the phrase ends and which one it is, unless the next token could make it longer.
  Each kind lists the tokens that could; most list none.
-/

import EntityQuery.Proofs.Grammar.Phrase

namespace EntityQuery

/-- What follows starts with none of the tokens. -/
def Follow (more rest : List TokenKind) : Prop := ∀ k ∈ rest.head?, k ∉ more

@[simp] theorem follow_nil (more : List TokenKind) : Follow more [] := by simp [Follow]

@[simp] theorem follow_cons (more : List TokenKind) (k : TokenKind) (ks : List TokenKind) :
    Follow more (k :: ks) ↔ k ∉ more := by simp [Follow]

@[simp] theorem follow_none (rest : List TokenKind) : Follow [] rest := by simp [Follow]

theorem Follow.mono {more fewer rest : List TokenKind} (h : Follow more rest) (hs : fewer ⊆ more) : Follow fewer rest :=
  fun k hk hm => h k hk (hs hm)

def Unambiguous {α : Type} (tokens : α → List TokenKind) (more : List TokenKind) : Prop :=
  ∀ a b r s, tokens a ++ r = tokens b ++ s → Follow more r → Follow more s → a = b ∧ r = s

variable {α β : Type} {tokens : α → List TokenKind} {more : List TokenKind}

namespace Unambiguous

theorem injective (h : Unambiguous tokens more) {a b : α} (he : tokens a = tokens b) : a = b :=
  (h a b [] [] (by rw [he]) (follow_nil _) (follow_nil _)).1

theorem mono (h : Unambiguous tokens more) {others : List TokenKind} (hs : more ⊆ others) : Unambiguous tokens others :=
  fun a b r s he hr ht => h a b r s he (hr.mono hs) (ht.mono hs)

theorem single {kind : α → TokenKind} (h : Function.Injective kind) : Unambiguous (fun a => [kind a]) [] := by
  intro a b r s he _ _
  simp only [List.singleton_append, List.cons.injEq] at he
  exact ⟨h he.1, he.2⟩

theorem after (h : Unambiguous tokens more) (k : TokenKind) : Unambiguous (fun a => k :: tokens a) more := by
  intro a b r s he hr hs
  simp only [List.cons_append, List.cons.injEq, true_and] at he
  exact h a b r s he hr hs

theorem closedBy (h : Unambiguous tokens more) {k : TokenKind} (hk : k ∉ more) :
    Unambiguous (fun a => tokens a ++ [k]) [] := by
  intro a b r s he _ _
  simp only [List.append_assoc, List.singleton_append] at he
  obtain ⟨hab, hrs⟩ := h a b _ _ he (by simpa using hk) (by simpa using hk)
  exact ⟨hab, (List.cons.inj hrs).2⟩

/-- Two phrases in a row, if no second one starts like a continuation of the first. -/
theorem both (h : Unambiguous tokens more) {second : β → List TokenKind} {others : List TokenKind}
    (h₂ : Unambiguous second others) (hf : ∀ b r, Follow others r → Follow more (second b ++ r)) :
    Unambiguous (fun p : α × β => tokens p.1 ++ second p.2) others := by
  intro ⟨a, b⟩ ⟨a', b'⟩ r s he hr hs
  simp only [List.append_assoc] at he
  obtain ⟨rfl, hb⟩ := h a a' _ _ he (hf b r hr) (hf b' s hs)
  obtain ⟨rfl, rfl⟩ := h₂ b b' r s hb hr hs
  exact ⟨rfl, rfl⟩

/-- A part that may be left out, if what starts it cannot follow where it is. -/
theorem optional (h : Unambiguous tokens more) (starts : List TokenKind)
    (hs : ∀ a, ∃ k ∈ starts, k ∈ (tokens a).head?) :
    Unambiguous (optionalTokens tokens) (starts ++ more) := by
  have hne : ∀ a r s, r = tokens a ++ s → ¬ Follow (starts ++ more) r := by
    intro a r s hr hf
    obtain ⟨k, hk, hh⟩ := hs a
    refine hf k ?_ (List.mem_append_left _ hk)
    simp only [Option.mem_def, hr, List.head?_append] at hh ⊢
    simp [hh]
  intro a b r s he hr hf
  cases a with
  | none =>
    cases b with
    | none => exact ⟨rfl, he⟩
    | some b => exact absurd hr (hne b r s he)
  | some a =>
    cases b with
    | none => exact absurd hf (hne a s r he.symm)
    | some b =>
      have hsub : more ⊆ starts ++ more := List.subset_append_right _ _
      obtain ⟨rfl, rfl⟩ := h a b r s he (hr.mono hsub) (hf.mono hsub)
      exact ⟨rfl, rfl⟩

end Unambiguous

theorem follow_optional {r : List TokenKind} (hs : ∀ a, Follow more (tokens a ++ r)) (hr : Follow more r)
    (o : Option α) :
    Follow more (optionalTokens tokens o ++ r) := by
  cases o with
  | none => exact hr
  | some a => exact hs a

/-! ## Chains -/

theorem follow_further {separator : TokenKind} (hs : separator ∉ more) (tail : List α) {r : List TokenKind}
    (hr : Follow (separator :: more) r) : Follow more (Chain.further separator tokens tail ++ r) := by
  cases tail with
  | nil => exact hr.mono (List.subset_cons_self _ _)
  | cons a tail => simpa [Chain.further] using hs

theorem further_unambiguous (h : Unambiguous tokens more) {separator : TokenKind} (hs : separator ∉ more) :
    Unambiguous (Chain.further separator tokens) (separator :: more) := by
  intro as
  induction as with
  | nil =>
    intro bs r s he hr _
    cases bs with
    | nil => exact ⟨rfl, he⟩
    | cons b bs =>
      simp only [Chain.further, List.flatMap_nil, List.nil_append, List.flatMap_cons, List.cons_append] at he
      simp [he] at hr
  | cons a as ih =>
    intro bs r s he hr hs'
    cases bs with
    | nil =>
      simp only [Chain.further, List.flatMap_nil, List.nil_append, List.flatMap_cons, List.cons_append] at he
      simp [← he] at hs'
    | cons b bs =>
      simp only [Chain.further, List.flatMap_cons, List.cons_append, List.append_assoc, List.cons.injEq,
        true_and] at he
      obtain ⟨rfl, ht⟩ := h a b _ _ he (follow_further hs as hr) (follow_further hs bs hs')
      obtain ⟨rfl, rfl⟩ := ih bs r s ht hr hs'
      exact ⟨rfl, rfl⟩

theorem chain_unambiguous (h : Unambiguous tokens more) {separator : TokenKind} (hs : separator ∉ more) :
    Unambiguous (Chain.tokens separator tokens) (separator :: more) := by
  intro ⟨a, as⟩ ⟨b, bs⟩ r s he hr hs'
  simp only [Chain.tokens, List.append_assoc] at he
  obtain ⟨rfl, ht⟩ := h a b _ _ he (follow_further hs as hr) (follow_further hs bs hs')
  obtain ⟨rfl, rfl⟩ := further_unambiguous h hs as bs r s ht hr hs'
  exact ⟨rfl, rfl⟩

theorem path_unambiguous : Unambiguous pathTokens [.mark .dot] :=
  chain_unambiguous (Unambiguous.single fun _ _ h => TokenKind.identifier.inj h) List.not_mem_nil

theorem path_starts (p : Chain String) : ∃ name ts, pathTokens p = .identifier name :: ts := ⟨p.head, _, rfl⟩

/-! ## Values -/

theorem literal_token_injective : Function.Injective LiteralPhrase.token := by
  intro a b h
  cases a with
  | boolean x => cases x <;> cases b with
    | boolean y => cases y <;> simp_all [LiteralPhrase.token]
    | _ => simp [LiteralPhrase.token] at h
  | json text v hv => cases b with
    | json text' v' hv' =>
      obtain rfl := TokenKind.json.inj h
      obtain rfl := Except.ok.inj (hv.symm.trans hv')
      rfl
    | boolean y => cases y <;> simp [LiteralPhrase.token] at h
    | _ => simp [LiteralPhrase.token] at h
  | _ => cases b with
    | boolean y => cases y <;> simp [LiteralPhrase.token] at h
    | _ => simp_all [LiteralPhrase.token]

theorem literal_token_ne_convert (l : LiteralPhrase) : l.token ≠ .keyword .convert := by
  cases l with
  | boolean b => cases b <;> simp [LiteralPhrase.token]
  | _ => simp [LiteralPhrase.token]

theorem literal_token_ne_param (l : LiteralPhrase) (name : String) : l.token ≠ .param name := by
  cases l with
  | boolean b => cases b <;> simp [LiteralPhrase.token]
  | _ => simp [LiteralPhrase.token]

theorem literal_token_ne_mark (l : LiteralPhrase) (m : Mark) : l.token ≠ .mark m := by
  cases l with
  | boolean b => cases b <;> simp [LiteralPhrase.token]
  | _ => simp [LiteralPhrase.token]

theorem convertible_token_injective : Function.Injective ConvertiblePhrase.token := by
  intro a b h
  cases a <;> cases b <;> simp_all [ConvertiblePhrase.token]

theorem value_unambiguous : Unambiguous ValuePhrase.tokens [] := by
  intro a b r s he _ _
  cases a with
  | literal l =>
    cases b with
    | literal l' =>
      obtain ⟨hl, rfl⟩ := Unambiguous.single literal_token_injective l l' r s he (follow_none _) (follow_none _)
      exact ⟨by rw [hl], rfl⟩
    | param name => exact absurd (List.cons.inj he).1 (literal_token_ne_param l name)
    | convert c t => exact absurd (List.cons.inj he).1 (literal_token_ne_convert l)
  | param name =>
    cases b with
    | literal l => exact absurd (List.cons.inj he).1.symm (literal_token_ne_param l name)
    | param name' => simpa [ValuePhrase.tokens] using he
    | convert c t => simp [ValuePhrase.tokens] at he
  | convert c t =>
    cases b with
    | literal l => exact absurd (List.cons.inj he).1.symm (literal_token_ne_convert l)
    | param name => simp [ValuePhrase.tokens] at he
    | convert c' t' =>
      simp only [ValuePhrase.tokens, List.cons_append, List.cons.injEq, true_and] at he
      obtain ⟨hc, ht⟩ := he
      obtain rfl := convertible_token_injective hc
      obtain ⟨rfl, rfl⟩ := path_unambiguous.closedBy (k := .mark .rparen) (by simp) t t' r s ht (follow_none _)
        (follow_none _)
      exact ⟨rfl, rfl⟩

theorem value_starts (v : ValuePhrase) : ∃ k ts, v.tokens = k :: ts ∧ ∀ m, k ≠ .mark m := by
  cases v with
  | literal l => exact ⟨l.token, [], rfl, literal_token_ne_mark l⟩
  | param name => exact ⟨.param name, [], rfl, by simp⟩
  | convert c t => exact ⟨.keyword .convert, _, rfl, by simp⟩

theorem values_unambiguous : Unambiguous (listTokens ValuePhrase.tokens) [.mark .comma] :=
  chain_unambiguous value_unambiguous List.not_mem_nil

theorem members_unambiguous : Unambiguous MembersPhrase.tokens [] := by
  have hne : ∀ v vs r s, MembersPhrase.tokens (.one v) ++ r ≠ MembersPhrase.tokens (.list vs) ++ s := by
    intro v vs r s he
    obtain ⟨k, ts, hv, hk⟩ := value_starts v
    simp only [MembersPhrase.tokens, hv, List.cons_append, List.cons.injEq] at he
    exact hk _ he.1
  intro a b r s he hr hs
  cases a with
  | one v =>
    cases b with
    | one v' =>
      obtain ⟨rfl, rfl⟩ := value_unambiguous v v' r s he hr hs
      exact ⟨rfl, rfl⟩
    | list vs => exact absurd he (hne v vs r s)
  | list vs =>
    cases b with
    | one v => exact absurd he.symm (hne v vs s r)
    | list vs' =>
      obtain ⟨rfl, rfl⟩ := (values_unambiguous.closedBy (k := .mark .rparen) (by simp)).after _ vs vs' r s he hr hs
      exact ⟨rfl, rfl⟩

/-! ## Conditions -/

theorem relation_token_injective : Function.Injective Relation.token := by
  intro a b h
  cases a <;> cases b <;> simp_all [Relation.token]

theorem predicate_unambiguous : Unambiguous PredicatePhrase.tokens [] := by
  intro a b r s he hr hs
  cases a with
  | relation x v =>
    cases b with
    | relation y w =>
      simp only [PredicatePhrase.tokens, List.cons_append, List.cons.injEq] at he
      obtain rfl := relation_token_injective he.1
      obtain ⟨rfl, rfl⟩ := value_unambiguous v w r s he.2 hr hs
      exact ⟨rfl, rfl⟩
    | _ => cases x <;> simp [PredicatePhrase.tokens, Relation.token] at he
  | isIn m =>
    cases b with
    | relation y w => cases y <;> simp [PredicatePhrase.tokens, Relation.token] at he
    | isIn m' =>
      obtain ⟨rfl, rfl⟩ := members_unambiguous.after _ m m' r s he hr hs
      exact ⟨rfl, rfl⟩
    | between low high => simp [PredicatePhrase.tokens] at he
  | between low high =>
    cases b with
    | relation y w => cases y <;> simp [PredicatePhrase.tokens, Relation.token] at he
    | isIn m => simp [PredicatePhrase.tokens] at he
    | between low' high' =>
      simp only [PredicatePhrase.tokens, List.cons_append, List.append_assoc, List.cons.injEq, true_and] at he
      obtain ⟨rfl, hh⟩ := value_unambiguous low low' _ _ he (follow_none _) (follow_none _)
      obtain ⟨rfl, rfl⟩ := value_unambiguous.after _ high high' r s hh hr hs
      exact ⟨rfl, rfl⟩

theorem predicate_no_dot (p : PredicatePhrase) (r : List TokenKind) : Follow [.mark .dot] (p.tokens ++ r) := by
  cases p with
  | relation x v => cases x <;> simp [PredicatePhrase.tokens, Relation.token]
  | _ => simp [PredicatePhrase.tokens]

theorem comparison_unambiguous : Unambiguous ComparisonPhrase.tokens [] := by
  intro ⟨p, q⟩ ⟨p', q'⟩ r s he hr hs
  obtain ⟨h, rfl⟩ := path_unambiguous.both predicate_unambiguous (fun b r _ => predicate_no_dot b r)
    (p, q) (p', q') r s he hr hs
  obtain ⟨rfl, rfl⟩ := Prod.mk.inj h
  exact ⟨rfl, rfl⟩

theorem comparison_starts (c : ComparisonPhrase) : ∃ name ts, c.tokens = .identifier name :: ts := by
  obtain ⟨name, ts, h⟩ := path_starts c.field
  exact ⟨name, ts ++ c.predicate.tokens, by rw [ComparisonPhrase.tokens, h]; rfl⟩

theorem conditionOf_unambiguous (h : Unambiguous tokens []) :
    Unambiguous (ConditionOf.tokens tokens) [.keyword .or, .keyword .and] :=
  chain_unambiguous (chain_unambiguous h List.not_mem_nil) (by simp)

theorem termOver_unambiguous (h : Unambiguous tokens []) : Unambiguous (TermOver.tokens tokens) [] := by
  intro a b r s he hr hs
  cases a with
  | comparison c =>
    obtain ⟨name, ts, hc⟩ := comparison_starts c
    cases b with
    | comparison c' =>
      obtain ⟨rfl, rfl⟩ := comparison_unambiguous c c' r s he hr hs
      exact ⟨rfl, rfl⟩
    | _ => simp [TermOver.tokens, hc] at he
  | not t =>
    cases b with
    | comparison c =>
      obtain ⟨name, ts, hc⟩ := comparison_starts c
      simp [TermOver.tokens, hc] at he
    | not t' =>
      obtain ⟨rfl, rfl⟩ := h.after _ t t' r s he hr hs
      exact ⟨rfl, rfl⟩
    | group c => simp [TermOver.tokens] at he
  | group c =>
    cases b with
    | comparison c =>
      obtain ⟨name, ts, hc⟩ := comparison_starts c
      simp [TermOver.tokens, hc] at he
    | not t => simp [TermOver.tokens] at he
    | group c' =>
      have hgroup := ((conditionOf_unambiguous h).closedBy (k := .mark .rparen) (by simp)).after (.mark .lparen)
      obtain ⟨rfl, rfl⟩ := hgroup c c' r s he hr hs
      exact ⟨rfl, rfl⟩

theorem term_unambiguous (levels : Nat) : Unambiguous (TermPhrase.tokens levels) [] := by
  induction levels with
  | zero => exact termOver_unambiguous fun e => e.elim
  | succ levels ih => exact termOver_unambiguous ih

theorem condition_unambiguous : Unambiguous ConditionPhrase.tokens [.keyword .or, .keyword .and] :=
  conditionOf_unambiguous (term_unambiguous _)

/-! ## Clauses -/

theorem where_unambiguous : Unambiguous whereTokens [.keyword .where, .keyword .or, .keyword .and] :=
  (condition_unambiguous.after _).optional [.keyword .where] fun _ => by simp

theorem direction_unambiguous :
    Unambiguous (optionalTokens fun d : Direction => [.keyword d.keyword]) [.keyword .asc, .keyword .desc] :=
  (Unambiguous.single fun a b h => by cases a <;> cases b <;> simp_all [Direction.keyword]).optional
    [.keyword .asc, .keyword .desc] fun d => by cases d <;> simp [Direction.keyword]

theorem sort_unambiguous : Unambiguous SortPhrase.tokens [.keyword .asc, .keyword .desc, .mark .dot] := by
  intro ⟨p, d⟩ ⟨p', d'⟩ r s he hr hs
  obtain ⟨h, rfl⟩ := path_unambiguous.both (direction_unambiguous.mono (by simp))
    (fun o r hr => follow_optional (fun d => by simp) (hr.mono (by simp)) o) (p, d) (p', d') r s he hr hs
  obtain ⟨rfl, rfl⟩ := Prod.mk.inj h
  exact ⟨rfl, rfl⟩

theorem order_unambiguous :
    Unambiguous orderTokens [.keyword .order, .mark .comma, .keyword .asc, .keyword .desc, .mark .dot] :=
  (((chain_unambiguous sort_unambiguous (by simp)).after _).after _).optional [.keyword .order] fun _ => by simp

theorem count_unambiguous (k : Keyword) : Unambiguous (countTokens k) [.keyword k] :=
  ((Unambiguous.single fun (a b : CountPhrase) h => Subtype.ext (TokenKind.integer.inj h)).after _).optional
    [.keyword k] fun _ => by simp

/-- What could make a select longer. -/
def clauseTokens : List TokenKind :=
  [.keyword .where, .keyword .or, .keyword .and, .keyword .order, .mark .comma, .keyword .asc, .keyword .desc,
   .mark .dot, .keyword .skip, .keyword .limit]

theorem clauses_unambiguous :
    Unambiguous (fun p : Option ConditionPhrase × Option (Chain SortPhrase) × Option CountPhrase × Option CountPhrase =>
      whereTokens p.1 ++ (orderTokens p.2.1 ++ (countTokens .skip p.2.2.1 ++ countTokens .limit p.2.2.2)))
      clauseTokens := by
  have hlimit : Unambiguous (countTokens .limit) clauseTokens :=
    (count_unambiguous .limit).mono (by simp [clauseTokens])
  have hskip := (count_unambiguous .skip).both hlimit fun o r hr =>
    follow_optional (fun n => by simp) (hr.mono (by simp [clauseTokens])) o
  have hwindow : ∀ {more : List TokenKind} (o : Option CountPhrase × Option CountPhrase) (r : List TokenKind),
      .keyword .skip ∉ more → .keyword .limit ∉ more → Follow more r →
        Follow more ((countTokens .skip o.1 ++ countTokens .limit o.2) ++ r) := by
    intro more o r hs hl hr
    rw [List.append_assoc]
    exact follow_optional (fun n => by simpa using hs) (follow_optional (fun n => by simpa using hl) hr o.2) o.1
  have horder := order_unambiguous.both hskip fun o r hr =>
    hwindow o r (by simp) (by simp) (hr.mono (by simp [clauseTokens]))
  refine where_unambiguous.both horder fun o r hr => ?_
  rw [List.append_assoc]
  exact follow_optional (fun n => by simp) (hwindow o.2 r (by simp) (by simp) (hr.mono (by simp [clauseTokens]))) o.1

theorem paths_unambiguous : Unambiguous (listTokens pathTokens) [.mark .comma, .mark .dot] :=
  chain_unambiguous path_unambiguous (by simp)

theorem selection_unambiguous : Unambiguous (fun s : SelectionPhrase => s.tokens ++ [.keyword .from]) [] := by
  have hpaths := paths_unambiguous.closedBy (k := .keyword .from) (by simp)
  intro a b r s he hr hs
  cases a with
  | paths ps =>
    cases b with
    | paths ps' =>
      obtain ⟨rfl, rfl⟩ := hpaths ps ps' r s he hr hs
      exact ⟨rfl, rfl⟩
    | _ => simp [SelectionPhrase.tokens, listTokens, Chain.tokens, pathTokens] at he
  | _ =>
    cases b with
    | paths ps => simp [SelectionPhrase.tokens, listTokens, Chain.tokens, pathTokens] at he
    | _ => simp_all [SelectionPhrase.tokens]

theorem assignment_unambiguous : Unambiguous AssignmentPhrase.tokens [] := by
  intro ⟨p, v⟩ ⟨p', v'⟩ r s he hr hs
  obtain ⟨h, rfl⟩ := path_unambiguous.both (value_unambiguous.after (.mark .eq)) (fun b r _ => by simp)
    (p, v) (p', v') r s he hr hs
  obtain ⟨rfl, rfl⟩ := Prod.mk.inj h
  exact ⟨rfl, rfl⟩

theorem assignments_unambiguous : Unambiguous (listTokens AssignmentPhrase.tokens) [.mark .comma] :=
  chain_unambiguous assignment_unambiguous List.not_mem_nil

/-! ## Queries -/

theorem select_unambiguous : Unambiguous SelectPhrase.tokens clauseTokens := by
  intro ⟨f, e, c, o, n, m⟩ ⟨f', e', c', o', n', m'⟩ r s he hr hs
  have hsplit : ∀ (x : SelectPhrase) (t : List TokenKind),
      x.tokens ++ t = (x.selection.tokens ++ [.keyword .from]) ++ .identifier x.entity :: (x.clauses ++ t) := by
    simp [SelectPhrase.tokens]
  rw [hsplit, hsplit] at he
  obtain ⟨rfl, hrest⟩ := selection_unambiguous f f' _ _ he (follow_none _) (follow_none _)
  obtain ⟨hname, hclauses⟩ := List.cons.inj hrest
  obtain rfl := TokenKind.identifier.inj hname
  obtain ⟨h, rfl⟩ := clauses_unambiguous (c, o, n, m) (c', o', n', m') r s hclauses hr hs
  simp only [Prod.mk.injEq] at h
  obtain ⟨rfl, rfl, rfl, rfl⟩ := h
  exact ⟨rfl, rfl⟩

theorem update_unambiguous : Unambiguous UpdatePhrase.tokens clauseTokens := by
  intro ⟨e, a, c⟩ ⟨e', a', c'⟩ r s he hr hs
  simp only [UpdatePhrase.tokens, List.cons_append, List.cons.injEq, TokenKind.identifier.injEq, true_and] at he
  obtain ⟨rfl, he⟩ := he
  obtain ⟨h, rfl⟩ := assignments_unambiguous.both (where_unambiguous.mono (by simp [clauseTokens]))
    (fun o r hr => follow_optional (fun n => by simp) (hr.mono (by simp [clauseTokens])) o) (a, c) (a', c') r s he hr hs
  obtain ⟨rfl, rfl⟩ := Prod.mk.inj h
  exact ⟨rfl, rfl⟩

theorem insert_unambiguous : Unambiguous InsertPhrase.tokens [] := by
  intro ⟨e, a⟩ ⟨e', a'⟩ r s he hr hs
  simp only [InsertPhrase.tokens, List.cons_append, List.cons.injEq, TokenKind.identifier.injEq, true_and] at he
  obtain ⟨rfl, he⟩ := he
  obtain ⟨rfl, rfl⟩ := assignments_unambiguous.closedBy (k := .mark .rparen) (by simp) a a' r s he hr hs
  exact ⟨rfl, rfl⟩

theorem query_unambiguous : Unambiguous QueryPhrase.tokens clauseTokens := by
  have hkeys : Unambiguous (listTokens ValuePhrase.tokens) clauseTokens :=
    values_unambiguous.mono (by simp [clauseTokens])
  have hinsert : Unambiguous InsertPhrase.tokens clauseTokens := insert_unambiguous.mono (by simp)
  intro a b r s he hr hs
  cases a <;> cases b <;>
    simp only [QueryPhrase.tokens, List.cons_append, List.cons.injEq, TokenKind.keyword.injEq, reduceCtorEq, true_and,
      false_and] at he
  case get.get keys keys' =>
    obtain ⟨rfl, rfl⟩ := hkeys keys keys' r s he hr hs
    exact ⟨rfl, rfl⟩
  case delete.delete keys keys' =>
    obtain ⟨rfl, rfl⟩ := hkeys keys keys' r s he hr hs
    exact ⟨rfl, rfl⟩
  case select.select q q' =>
    obtain ⟨rfl, rfl⟩ := select_unambiguous q q' r s he hr hs
    exact ⟨rfl, rfl⟩
  case update.update q q' =>
    obtain ⟨rfl, rfl⟩ := update_unambiguous q q' r s he hr hs
    exact ⟨rfl, rfl⟩
  case insert.insert q q' =>
    obtain ⟨rfl, rfl⟩ := hinsert q q' r s he hr hs
    exact ⟨rfl, rfl⟩

end EntityQuery
