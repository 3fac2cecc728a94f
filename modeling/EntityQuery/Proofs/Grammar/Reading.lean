/-
  EntityQuery.Proofs.Grammar.Reading — what it is for a parser to read a kind of
  phrase: whatever it accepts is a phrase's tokens taken one after the other
  (`sound`), and it accepts the tokens of every phrase, unless the token behind them
  could make the phrase longer (`complete`).

  Repetitions go on as far as the readings still to come allow. Every further item
  takes its separator, which is not the end of input, so the bound is never what ends
  a repetition (`further_length_le`).
-/

import EntityQuery.Proofs.Grammar.Phrase

namespace EntityQuery.Parser

variable {α β τ : Type} {s s' : ParserState}

/-! ## Results -/

theorem bind_eq_ok {p : Parser α} {f : α → Parser β} {b : β} :
    (p >>= f) s = .ok b s' ↔ ∃ a m, p s = .ok a m ∧ f a m = .ok b s' := by
  show EStateM.bind p f s = _ ↔ _
  unfold EStateM.bind
  cases p s with
  | ok a m =>
    constructor
    · intro h; exact ⟨a, m, rfl, h⟩
    · intro ⟨a, m, h, hf⟩
      cases h
      exact hf
  | error e m => simp

@[simp] theorem pure_eq_ok {a b : α} : (pure a : Parser α) s = .ok b s' ↔ a = b ∧ s = s' := by
  show EStateM.Result.ok a s = _ ↔ _
  simp

theorem map_eq_ok {p : Parser α} {f : α → β} {b : β} :
    (f <$> p) s = .ok b s' ↔ ∃ a, p s = .ok a s' ∧ f a = b := by
  show EStateM.map f p s = _ ↔ _
  unfold EStateM.map
  cases p s with
  | ok a m =>
    constructor
    · intro h; cases h; exact ⟨a, rfl, rfl⟩
    · intro he
      obtain ⟨a, h, rfl⟩ := he
      cases h
      rfl
  | error e m => simp

@[simp] theorem get_bind (f : ParserState → Parser β) : (get >>= f) s = f s s := rfl

@[simp] theorem malformed_ne_ok (fault : SyntaxFault) (a : α) : malformed fault s ≠ .ok a s' := nofun

@[simp] theorem unexpected_ne_ok (what : String) (a : α) : unexpected what s ≠ .ok a s' := nofun

/-! ## Taking tokens -/

/-- Taking the tokens one after the other leads from one state to the other. -/
inductive Takes : ParserState → List TokenKind → ParserState → Prop
  | none (s : ParserState) : Takes s [] s
  | token {s m s' : ParserState} {ks : List TokenKind} :
      advance s = .ok () m → Takes m ks s' → Takes s (s.current.kind :: ks) s'

namespace Takes

variable {m : ParserState} {k : TokenKind} {ks ls : List TokenKind}

@[simp] theorem nil_iff : Takes s [] s' ↔ s = s' := by
  constructor
  · intro h; cases h; rfl
  · intro h
    subst h
    exact .none s

theorem cons_iff : Takes s (k :: ks) s' ↔ s.current.kind = k ∧ ∃ m, advance s = .ok () m ∧ Takes m ks s' := by
  constructor
  · intro h
    cases h with
    | token ha ht => exact ⟨rfl, _, ha, ht⟩
  · intro h
    obtain ⟨rfl, m, ha, ht⟩ := h
    exact .token ha ht

theorem append_iff : Takes s (ks ++ ls) s' ↔ ∃ m, Takes s ks m ∧ Takes m ls s' := by
  induction ks generalizing s with
  | nil => simp
  | cons k ks ih =>
    simp only [List.cons_append, cons_iff, ih]
    constructor
    · intro ⟨hk, n, ha, m, h₁, h₂⟩
      exact ⟨m, ⟨hk, n, ha, h₁⟩, h₂⟩
    · intro ⟨m, ⟨hk, n, ha, h₁⟩, h₂⟩
      exact ⟨hk, n, ha, m, h₁, h₂⟩

theorem single_iff : Takes s [k] s' ↔ s.current.kind = k ∧ advance s = .ok () s' := by
  rw [cons_iff]
  constructor
  · intro ⟨hk, m, ha, ht⟩
    obtain rfl := nil_iff.mp ht
    exact ⟨hk, ha⟩
  · intro ⟨hk, ha⟩
    exact ⟨hk, s', ha, .none s'⟩

theorem cons (h : Takes s [k] m) (ht : Takes m ks s') : Takes s (k :: ks) s' :=
  append_iff.mpr ⟨m, h, ht⟩

theorem uncons (h : Takes s (k :: ks) s') : ∃ m, Takes s [k] m ∧ Takes m ks s' := by
  rw [← List.singleton_append] at h
  exact append_iff.mp h

theorem append (h : Takes s ks m) (ht : Takes m ls s') : Takes s (ks ++ ls) s' := append_iff.mpr ⟨m, h, ht⟩

/-- The first token to be taken is the one in front. -/
theorem current_kind (h : Takes s (k :: ks) s') : s.current.kind = k := (cons_iff.mp h).1

end Takes

/-! ## Single tokens -/

theorem accept_eq_ok {kind : TokenKind} {b : Bool} :
    accept kind s = .ok b s' ↔ (b = true ∧ Takes s [kind] s') ∨ (b = false ∧ s.current.kind ≠ kind ∧ s = s') := by
  rw [Takes.single_iff]
  have h : accept kind s = (if (s.current.kind == kind) = true then (advance >>= fun _ => pure true)
      else (pure false : Parser Bool)) s := rfl
  by_cases hk : s.current.kind = kind
  · rw [h, if_pos (beq_iff_eq.mpr hk), bind_eq_ok]
    constructor
    · intro ⟨_, m, ha, hb⟩
      obtain ⟨rfl, rfl⟩ := pure_eq_ok.mp hb
      exact .inl ⟨rfl, hk, ha⟩
    · intro h
      rcases h with ⟨rfl, -, ha⟩ | ⟨-, hn, -⟩
      · exact ⟨_, s', ha, rfl⟩
      · exact absurd hk hn
  · rw [h, if_neg (by simpa using hk), pure_eq_ok]
    constructor
    · intro h
      obtain ⟨rfl, rfl⟩ := h
      exact .inr ⟨rfl, hk, rfl⟩
    · intro h
      rcases h with ⟨-, hn, -⟩ | ⟨rfl, -, rfl⟩
      · exact absurd hn hk
      · exact ⟨rfl, rfl⟩

theorem accept_true {kind : TokenKind} (h : Takes s [kind] s') : accept kind s = .ok true s' :=
  accept_eq_ok.mpr (.inl ⟨rfl, h⟩)

theorem accept_false {kind : TokenKind} (h : s.current.kind ≠ kind) : accept kind s = .ok false s :=
  accept_eq_ok.mpr (.inr ⟨rfl, h, rfl⟩)

theorem ite_accept_eq_ok {kind : TokenKind} {p q : Parser α} {a : α} :
    (accept kind >>= fun b => if b = true then p else q) s = .ok a s' ↔
      (∃ m, Takes s [kind] m ∧ p m = .ok a s') ∨ (s.current.kind ≠ kind ∧ q s = .ok a s') := by
  rw [bind_eq_ok]
  constructor
  · intro ⟨b, m, hb, h⟩
    rcases accept_eq_ok.mp hb with ⟨rfl, ht⟩ | ⟨rfl, hk, rfl⟩
    · exact .inl ⟨m, ht, by simpa using h⟩
    · exact .inr ⟨hk, by simpa using h⟩
  · intro he
    rcases he with ⟨m, ht, h⟩ | ⟨hk, h⟩
    · exact ⟨true, m, accept_true ht, by simpa using h⟩
    · exact ⟨false, s, accept_false hk, by simpa using h⟩

/-- Whatever is said to be wanted where it is missing. -/
theorem expected_eq_ok {kind : TokenKind} {what : String} :
    (accept kind >>= fun b => if b = true then pure () else unexpected what) s = .ok () s' ↔ Takes s [kind] s' := by
  rw [ite_accept_eq_ok]
  simp

theorem expect_eq_ok {kind : TokenKind} : expect kind s = .ok () s' ↔ Takes s [kind] s' := expected_eq_ok

theorem expectMark_eq_ok {m : Mark} : expectMark m s = .ok () s' ↔ Takes s [.mark m] s' := expect_eq_ok

theorem expectKeyword_eq_ok {k : Keyword} : expectKeyword k s = .ok () s' ↔ Takes s [.keyword k] s' := expected_eq_ok

theorem identifier_eq_ok {what name : String} :
    identifier what s = .ok name s' ↔ Takes s [.identifier name] s' := by
  rw [Takes.single_iff, identifier, get_bind]
  cases hk : s.current.kind with
  | identifier n =>
    simp only [bind_eq_ok, pure_eq_ok, TokenKind.identifier.injEq]
    constructor
    · intro h
      obtain ⟨_, m, ha, rfl, rfl⟩ := h
      exact ⟨rfl, ha⟩
    · intro h
      obtain ⟨rfl, ha⟩ := h
      exact ⟨_, s', ha, rfl, rfl⟩
  | _ => simp

theorem count_eq_ok {k : Keyword} {n : Nat} :
    count k s = .ok n s' ↔ ∃ c : CountPhrase, c.1.toInt.toNat = n ∧ Takes s [.integer c.1] s' := by
  simp only [Takes.single_iff, count, get_bind]
  cases hk : s.current.kind with
  | integer i =>
    simp only [TokenKind.integer.injEq]
    by_cases hneg : i.toInt < 0
    · simp only [hneg, if_true, unexpected_ne_ok, false_iff, not_exists, not_and]
      intro c _ hc
      subst hc
      exact absurd c.2 (Int.not_le.mpr hneg)
    · simp only [hneg, if_false, bind_eq_ok, pure_eq_ok]
      constructor
      · intro h
        obtain ⟨_, m, ha, rfl, rfl⟩ := h
        exact ⟨⟨i, Int.not_lt.mp hneg⟩, rfl, rfl, ha⟩
      · intro h
        obtain ⟨c, rfl, rfl, ha⟩ := h
        exact ⟨(), s', ha, rfl, rfl⟩
  | _ => simp

/-! ## Phrases -/

/-- A parser reads a kind of phrase, where `more` are the tokens that could make one
    longer. -/
structure Reads (p : Parser α) (tokens : τ → List TokenKind) (meaning : τ → α) (more : List TokenKind) : Prop where
  sound : ∀ {s s' a}, p s = .ok a s' → ∃ t, meaning t = a ∧ Takes s (tokens t) s'
  complete : ∀ {s s'} t, Takes s (tokens t) s' → s'.current.kind ∉ more → p s = .ok (meaning t) s'

namespace Reads

variable {p : Parser α} {tokens : τ → List TokenKind} {meaning : τ → α} {more : List TokenKind}

theorem mono (h : Reads p tokens meaning more) {others : List TokenKind} (hs : more ⊆ others) :
    Reads p tokens meaning others :=
  ⟨h.sound, fun t ht hm => h.complete t ht fun hk => hm (hs hk)⟩

/-- A part that may be left out, and starts with a word of its own where it is not. -/
theorem optional {k : Keyword} (h : Reads p tokens meaning more) :
    Reads (acceptKeyword k >>= fun b => if b = true then p >>= fun a => pure (some a) else pure none)
      (optionalTokens fun t => .keyword k :: tokens t) (Option.map meaning) (.keyword k :: more) where
  sound hp := by
    rcases ite_accept_eq_ok.mp hp with ⟨m, hk, hp⟩ | ⟨hk, hp⟩
    · obtain ⟨a, n, ha, hp⟩ := bind_eq_ok.mp hp
      obtain ⟨rfl, rfl⟩ := pure_eq_ok.mp hp
      obtain ⟨t, rfl, ht⟩ := h.sound ha
      exact ⟨some t, rfl, hk.cons ht⟩
    · obtain ⟨rfl, rfl⟩ := pure_eq_ok.mp hp
      exact ⟨none, rfl, .none _⟩
  complete o ht hm := by
    simp only [List.mem_cons, not_or] at hm
    apply ite_accept_eq_ok.mpr
    cases o with
    | none =>
      obtain rfl := Takes.nil_iff.mp ht
      exact .inr ⟨hm.1, rfl⟩
    | some t =>
      obtain ⟨m, hk, ht⟩ := ht.uncons
      exact .inl ⟨m, hk, bind_eq_ok.mpr ⟨_, _, h.complete t ht hm.2, rfl⟩⟩

end Reads

/-! ## Repetition -/

/-- The tokens that can be taken before the end of input. -/
def left (s : ParserState) : Nat := s.feed.upcoming.length + if s.current.kind = .endOfInput then 0 else 1

theorem left_advance {m : ParserState} (h : advance s = .ok () m) : left m ≤ s.feed.upcoming.length := by
  simp only [advance, Token.Feed.next] at h
  cases hu : s.feed.upcoming with
  | nil =>
    rw [hu] at h
    cases he : s.feed.ending with
    | atEnd p =>
      simp only [he, Token.Ending.reading, EStateM.Result.ok.injEq, true_and] at h
      simp [left, ← h, hu]
    | stuck e => simp [he, Token.Ending.reading] at h
  | cons r rest =>
    rw [hu] at h
    cases r with
    | error e => simp at h
    | ok t =>
      simp only [EStateM.Result.ok.injEq, true_and] at h
      simp only [left, ← h, List.length_cons]
      split <;> omega

theorem Takes.count_le {ks : List TokenKind} (h : Takes s ks s') : ks.countP (· != .endOfInput) ≤ left s := by
  induction h with
  | none s => simp
  | @token s m s' ks ha _ ih =>
    have := left_advance ha
    simp only [List.countP_cons, left]
    by_cases hk : s.current.kind = .endOfInput <;> simp [hk] <;> omega

theorem length_le_countP_further {separator : TokenKind} (hs : separator ≠ .endOfInput) (tokens : τ → List TokenKind)
    (tail : List τ) : tail.length ≤ (Chain.further separator tokens tail).countP (· != .endOfInput) := by
  induction tail with
  | nil => simp
  | cons a tail ih =>
    have h : Chain.further separator tokens (a :: tail) =
        separator :: (tokens a ++ Chain.further separator tokens tail) := rfl
    rw [h, List.countP_cons, List.countP_append]
    have hone : (separator != .endOfInput) = true := by simpa using hs
    simp only [hone, if_true, List.length_cons]
    omega

/-- There are no more further items than the bound of a repetition allows. -/
theorem further_length_le {separator : TokenKind} (hs : separator ≠ .endOfInput) {tokens : τ → List TokenKind}
    {tail : List τ} (h : Takes s (Chain.further separator tokens tail) s') :
    tail.length ≤ s.feed.upcoming.length + 1 := by
  have h₁ := length_le_countP_further hs tokens tail
  have h₂ := h.count_le
  unfold left at h₂
  split at h₂ <;> omega

@[simp] theorem itemBound_bind (f : Nat → Parser β) : (itemBound >>= f) s = f (s.feed.upcoming.length + 1) s := rfl

variable {item : Parser α} {tokens : τ → List TokenKind} {meaning : τ → α} {more : List TokenKind}

/-- Between two items stands the separator, which makes no item longer. -/
theorem current_notMem_of_further {separator : TokenKind} (hs : separator ∉ more) {tail : List τ}
    (h : Takes s (Chain.further separator tokens tail) s') (hm : s'.current.kind ∉ separator :: more) :
    s.current.kind ∉ more := by
  cases tail with
  | nil =>
    obtain rfl := Takes.nil_iff.mp h
    exact fun hk => hm (List.mem_cons_of_mem _ hk)
  | cons a tail => rw [h.current_kind]; exact hs

theorem moreItems_sound (h : Reads item tokens meaning more) {separator : Mark} {bound : Nat} {as : List α}
    (hp : moreItems separator item bound s = .ok as s') :
    ∃ tail : List τ, tail.map meaning = as ∧ Takes s (Chain.further (.mark separator) tokens tail) s' := by
  induction bound generalizing s as with
  | zero =>
    obtain ⟨rfl, rfl⟩ := pure_eq_ok.mp hp
    exact ⟨[], rfl, .none _⟩
  | succ bound ih =>
    rcases ite_accept_eq_ok.mp hp with ⟨m, hk, hp⟩ | ⟨-, hp⟩
    · obtain ⟨a, n, ha, hp⟩ := bind_eq_ok.mp hp
      obtain ⟨rest, l, hr, hp⟩ := bind_eq_ok.mp hp
      obtain ⟨rfl, rfl⟩ := pure_eq_ok.mp hp
      obtain ⟨t, rfl, ht⟩ := h.sound ha
      obtain ⟨tail, rfl, htail⟩ := ih hr
      exact ⟨t :: tail, rfl, hk.cons (ht.append htail)⟩
    · obtain ⟨rfl, rfl⟩ := pure_eq_ok.mp hp
      exact ⟨[], rfl, .none _⟩

theorem moreItems_complete (h : Reads item tokens meaning more) {separator : Mark} (hs : .mark separator ∉ more)
    {tail : List τ} {bound : Nat} (hb : tail.length ≤ bound)
    (ht : Takes s (Chain.further (.mark separator) tokens tail) s') (hm : s'.current.kind ∉ .mark separator :: more) :
    moreItems separator item bound s = .ok (tail.map meaning) s' := by
  induction tail generalizing s bound with
  | nil =>
    obtain rfl := Takes.nil_iff.mp ht
    cases bound with
    | zero => rfl
    | succ bound => exact ite_accept_eq_ok.mpr (.inr ⟨fun hk => hm (by simp [hk]), rfl⟩)
  | cons t tail ih =>
    cases bound with
    | zero => simp at hb
    | succ bound =>
      obtain ⟨m, hk, ht⟩ := ht.uncons
      obtain ⟨n, ht, hrest⟩ := Takes.append_iff.mp ht
      refine ite_accept_eq_ok.mpr (.inl ⟨m, hk, ?_⟩)
      refine bind_eq_ok.mpr ⟨_, n, h.complete t ht (current_notMem_of_further hs hrest hm), ?_⟩
      exact bind_eq_ok.mpr ⟨_, s', ih (by simpa using hb) hrest, rfl⟩

/-- Items after commas. -/
theorem commaList_reads (h : Reads item tokens meaning more) (hs : .mark .comma ∉ more) :
    Reads (commaList item) (listTokens tokens) (fun c => c.items.map meaning) (.mark .comma :: more) where
  sound hp := by
    obtain ⟨a, m, ha, hp⟩ := bind_eq_ok.mp hp
    rw [itemBound_bind] at hp
    obtain ⟨rest, l, hr, hp⟩ := bind_eq_ok.mp hp
    obtain ⟨rfl, rfl⟩ := pure_eq_ok.mp hp
    obtain ⟨t, rfl, ht⟩ := h.sound ha
    obtain ⟨tail, rfl, htail⟩ := moreItems_sound h hr
    exact ⟨⟨t, tail⟩, rfl, ht.append htail⟩
  complete c ht hm := by
    obtain ⟨m, ht, hrest⟩ := Takes.append_iff.mp ht
    refine bind_eq_ok.mpr ⟨_, m, h.complete c.head ht (current_notMem_of_further hs hrest hm), ?_⟩
    rw [itemBound_bind]
    exact bind_eq_ok.mpr ⟨_, _, moreItems_complete h hs (further_length_le (by simp) hrest) hrest hm, rfl⟩

theorem name_reads (what : String) : Reads (identifier what) (fun name => [.identifier name]) id [] where
  sound hp := ⟨_, rfl, identifier_eq_ok.mp hp⟩
  complete _ ht _ := identifier_eq_ok.mpr ht

theorem path_reads : Reads path pathTokens pathName [.mark .dot] where
  sound hp := by
    obtain ⟨name, m, hn, hp⟩ := bind_eq_ok.mp hp
    rw [itemBound_bind] at hp
    obtain ⟨rest, l, hr, hp⟩ := bind_eq_ok.mp hp
    obtain ⟨rfl, rfl⟩ := pure_eq_ok.mp hp
    obtain ⟨tail, rfl, htail⟩ := moreItems_sound (name_reads _) hr
    exact ⟨⟨name, tail⟩, by simp [pathName, Chain.items], (identifier_eq_ok.mp hn).append htail⟩
  complete p ht hm := by
    obtain ⟨m, ht, hrest⟩ := Takes.append_iff.mp ht
    refine bind_eq_ok.mpr ⟨_, m, identifier_eq_ok.mpr ht, ?_⟩
    rw [itemBound_bind]
    have hbound := further_length_le (by simp) hrest
    refine bind_eq_ok.mpr ⟨_, _, moreItems_complete (name_reads _) (by simp) hbound hrest hm, ?_⟩
    simp [pathName, Chain.items]

/-! ## Chains of a connective -/

section Connective

variable {term : Parser (Condition Operand)} {meaning : τ → Condition Operand} {k : Keyword}
  {join : Condition Operand → Condition Operand → Condition Operand}

theorem moreTerms_sound (h : Reads term tokens meaning more) {bound : Nat} {l c : Condition Operand}
    (hp : moreTerms k join term bound l s = .ok c s') :
    ∃ tail : List τ, (tail.map meaning).foldl join l = c ∧ Takes s (Chain.further (.keyword k) tokens tail) s' := by
  induction bound generalizing s l with
  | zero =>
    obtain ⟨rfl, rfl⟩ := pure_eq_ok.mp hp
    exact ⟨[], rfl, .none _⟩
  | succ bound ih =>
    rcases ite_accept_eq_ok.mp hp with ⟨m, hk, hp⟩ | ⟨-, hp⟩
    · obtain ⟨r, n, hr, hp⟩ := bind_eq_ok.mp hp
      obtain ⟨t, rfl, ht⟩ := h.sound hr
      obtain ⟨tail, rfl, htail⟩ := ih hp
      exact ⟨t :: tail, rfl, hk.cons (ht.append htail)⟩
    · obtain ⟨rfl, rfl⟩ := pure_eq_ok.mp hp
      exact ⟨[], rfl, .none _⟩

theorem moreTerms_complete (h : Reads term tokens meaning more) (hs : .keyword k ∉ more) {tail : List τ} {bound : Nat}
    (hb : tail.length ≤ bound) {l : Condition Operand} (ht : Takes s (Chain.further (.keyword k) tokens tail) s')
    (hm : s'.current.kind ∉ .keyword k :: more) :
    moreTerms k join term bound l s = .ok ((tail.map meaning).foldl join l) s' := by
  induction tail generalizing s bound l with
  | nil =>
    obtain rfl := Takes.nil_iff.mp ht
    cases bound with
    | zero => rfl
    | succ bound => exact ite_accept_eq_ok.mpr (.inr ⟨fun hk => hm (by simp [hk]), rfl⟩)
  | cons t tail ih =>
    cases bound with
    | zero => simp at hb
    | succ bound =>
      obtain ⟨m, hk, ht⟩ := ht.uncons
      obtain ⟨n, ht, hrest⟩ := Takes.append_iff.mp ht
      refine ite_accept_eq_ok.mpr (.inl ⟨m, hk, ?_⟩)
      refine bind_eq_ok.mpr ⟨_, n, h.complete t ht (current_notMem_of_further hs hrest hm), ?_⟩
      exact ih (by simpa using hb) hrest

theorem chain_reads (h : Reads term tokens meaning more) (hs : .keyword k ∉ more) :
    Reads (chain k join term) (Chain.tokens (.keyword k) tokens) (Chain.joined join meaning) (.keyword k :: more) where
  sound hp := by
    obtain ⟨l, m, hl, hp⟩ := bind_eq_ok.mp hp
    rw [itemBound_bind] at hp
    obtain ⟨t, rfl, ht⟩ := h.sound hl
    obtain ⟨tail, rfl, htail⟩ := moreTerms_sound h hp
    exact ⟨⟨t, tail⟩, rfl, ht.append htail⟩
  complete c ht hm := by
    obtain ⟨m, ht, hrest⟩ := Takes.append_iff.mp ht
    refine bind_eq_ok.mpr ⟨_, m, h.complete c.head ht (current_notMem_of_further hs hrest hm), ?_⟩
    rw [itemBound_bind]
    exact moreTerms_complete h hs (further_length_le (by simp) hrest) hrest hm

end Connective

end EntityQuery.Parser
