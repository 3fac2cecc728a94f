/-
  EntityQuery.Proofs.Grammar.Prediction — parsers that decide by the token in front.

  A parser predicts a language when the tokens it takes are a word of it, a failure
  leaves it behind tokens that can still become one, and both depend on nothing but
  the kinds of the tokens taken and of the one in front (`Predicts`). So a failure lies
  at the first token that fits no word, and is met again wherever the same kinds
  stand.

  What can still become a word is judged by what can be written: tokens begin a word
  that spellable ones finish (`Begins`).

  Prediction is closed under what parsers are made of: taking a token, choosing by the
  token in front, going on (`Predicts.bind`) and repeating (`repeated_predicts`). The
  bound of a repetition is never what ends it, so a repetition goes on as it started
  (`repeated_unfold`).
-/

import EntityQuery.Proofs.Grammar.Reading
import EntityQuery.Proofs.Lexing.Lexeme
import Mathlib.Computability.Language

namespace EntityQuery

/-! ## Words that can be finished -/

/-- Some lexeme is a token of the kind. -/
def Spellable (k : TokenKind) : Prop := ∃ w, Token.Scans k w []

theorem spellable_name {c : Char} {cs : List Char} (hc : Text.isNameStart c = true)
    (hcs : (c :: cs).all Text.isNamePart = true) : Spellable (Token.nameKind (String.ofList (c :: cs))) := by
  have hparts : ∀ d ∈ c :: cs, Text.isNamePart d = true := List.all_eq_true.mp hcs
  have hblank : Text.isBlank c = false := Bool.eq_false_iff.mpr fun hb => by
    have hpart := hparts c List.mem_cons_self
    rw [(Token.class_of_isBlank hb).1] at hpart
    cases hpart
  obtain ⟨ht, hd⟩ := Token.takeWhile_append_iff.mpr ⟨hparts, (rfl : Token.opens Text.isNamePart [] = false)⟩
  refine ⟨c :: cs, c, cs, rfl, hblank, ?_⟩
  rw [Token.scan_of_nameStart hc, ← List.cons_append, Token.scanName, ht, hd]

theorem spellable_keyword (k : Keyword) : Spellable (.keyword k) := by
  have hword : Token.nameKind (String.ofList k.word.toList) = .keyword k := by
    rw [String.ofList_toList, Token.nameKind, Keyword.lookup_word]
    rfl
  rw [← hword]
  cases k <;> exact spellable_name (by decide) (by decide)

theorem spellable_identifier : Spellable (.identifier "a") := by
  have hword : Token.nameKind (String.ofList ['a']) = .identifier "a" := by decide +kernel
  rw [← hword]
  exact spellable_name (by decide) (by decide)

theorem spellable_mark (m : Mark) : Spellable (.mark m) := by
  refine ⟨m.text.toList, ?_⟩
  cases m <;> exact ⟨_, _, rfl, rfl, rfl⟩

theorem spellable_string : Spellable (.string "") := ⟨['"', '"'], _, _, rfl, rfl, rfl⟩

theorem spellable_integer : Spellable (.integer 0) := ⟨['0'], _, _, rfl, rfl, rfl⟩

namespace Parser

variable {α β : Type} {s s' m n : ParserState} {L L₁ L₂ : Language TokenKind} {ks ls : List TokenKind}

/-- Tokens that spellable ones can make a word of the language. -/
def Begins (L : Language TokenKind) (ks : List TokenKind) : Prop := ∃ ls, ks ++ ls ∈ L ∧ ∀ k ∈ ls, Spellable k

/-- Some word can be spelled. -/
abbrev Completable (L : Language TokenKind) : Prop := Begins L []

theorem begins_of_mem (h : ks ∈ L) : Begins L ks := ⟨[], by rwa [List.append_nil], List.forall_mem_nil _⟩

theorem Begins.mono (h : Begins L₁ ks) (hL : ∀ ks ∈ L₁, ks ∈ L₂) : Begins L₂ ks := by
  obtain ⟨ls, hls, hspell⟩ := h
  exact ⟨ls, hL _ hls, hspell⟩

/-- Where the first part is not finished, any second part can follow. -/
theorem Begins.left (h : Begins L₁ ks) (hc : Completable L₂) : Begins (L₁ * L₂) ks := by
  obtain ⟨ls, hls, hspell⟩ := h
  obtain ⟨rs, hrs, hspell'⟩ := hc
  refine ⟨ls ++ rs, ?_, ?_⟩
  · rw [← List.append_assoc]
    exact Language.append_mem_mul hls hrs
  · intro k hk
    exact (List.mem_append.mp hk).elim (hspell k) (hspell' k)

theorem Begins.right (h : Begins L₂ ls) (hks : ks ∈ L₁) : Begins (L₁ * L₂) (ks ++ ls) := by
  obtain ⟨rs, hrs, hspell⟩ := h
  refine ⟨rs, ?_, hspell⟩
  rw [List.append_assoc]
  exact Language.append_mem_mul hks hrs

theorem completable_mul (h₁ : Completable L₁) (h₂ : Completable L₂) : Completable (L₁ * L₂) := h₁.left h₂

theorem completable_one : Completable 1 := begins_of_mem (Language.mem_one [] |>.mpr rfl)

/-! ## Prediction -/

theorem bind_eq_error {p : Parser α} {f : α → Parser β} {e : QueryError} :
    (p >>= f) s = .error e s' ↔ p s = .error e s' ∨ ∃ a m, p s = .ok a m ∧ f a m = .error e s' := by
  show EStateM.bind p f s = _ ↔ _
  unfold EStateM.bind
  cases p s with
  | ok a m =>
    constructor
    · intro h
      exact .inr ⟨a, m, rfl, h⟩
    · rintro (h | ⟨a, m, h, hf⟩)
      · cases h
      · cases h
        exact hf
  | error e m => simp

/-- How a parser goes on depends on what the part before did. -/
theorem bind_congr_of_eq {p q : Parser α} (h : p s = q s) (f : α → Parser β) : (p >>= f) s = (q >>= f) s := by
  show EStateM.bind p f s = EStateM.bind q f s
  unfold EStateM.bind
  rw [h]

theorem accept_bind_of_eq {kind : TokenKind} (h : s.current.kind = kind) (f : Bool → Parser β) :
    (accept kind >>= f) s = (advance >>= fun _ => f true) s := by
  have haccept : accept kind s = (advance >>= fun _ => pure true : Parser Bool) s := by
    show (if (s.current.kind == kind) = true then (advance >>= fun _ => pure true) else pure false : Parser Bool) s = _
    rw [if_pos (beq_iff_eq.mpr h)]
  rw [bind_congr_of_eq haccept, bind_assoc]
  simp only [pure_bind]

theorem accept_bind_of_ne {kind : TokenKind} (h : s.current.kind ≠ kind) (f : Bool → Parser β) :
    (accept kind >>= f) s = f false s := by
  have haccept : accept kind s = (pure false : Parser Bool) s := accept_false h
  rw [bind_congr_of_eq haccept, pure_bind]

/-- Where the same tokens are taken up to the same one in front, the first of them all
    is the same. -/
theorem Takes.front_eq {ks : List TokenKind} {s₂ : ParserState} (h : Takes s ks m) (h₂ : Takes s₂ ks n)
    (hfront : n.current.kind = m.current.kind) : s₂.current.kind = s.current.kind := by
  cases ks with
  | nil =>
    obtain rfl := Takes.nil_iff.mp h
    obtain rfl := Takes.nil_iff.mp h₂
    exact hfront
  | cons k ks => exact h₂.current_kind.trans h.current_kind.symm

/-- A failure behind tokens that begin a word: the token behind them cannot be read, or
    it is at fault, and with it in front the parser fails alike behind the same kinds. A
    fault of the query may show the word in front. -/
inductive Fails (p : Parser α) (L : Language TokenKind) (s : ParserState) : QueryError → ParserState → Prop
  | unread {ks : List TokenKind} {n m : ParserState} {e : QueryError} :
      .endOfInput ∉ ks → n.current.kind ≠ .endOfInput → Takes s ks n → Begins L (ks ++ [n.current.kind]) →
      advance n = .error e m → Fails p L s e m
  | offence {ks : List TokenKind} {m : ParserState} (fault : SyntaxFault) :
      .endOfInput ∉ ks → Takes s ks m → Begins L ks →
      (∀ s₂ n, Takes s₂ ks n → n.current.kind = m.current.kind →
        p s₂ = .error (.malformed fault n.current.position) n) →
      Fails p L s (.malformed fault m.current.position) m
  | query {ks : List TokenKind} {m : ParserState} (fault : String → QueryFault) :
      .endOfInput ∉ ks → Takes s ks m →
      (∀ s₂ n, Takes s₂ ks n → n.current.kind = m.current.kind →
        p s₂ = .error (.query (fault n.current.lexeme)) n) →
      Fails p L s (.query (fault m.current.lexeme)) m

/-- A parser that fails wherever another one does fails like it. -/
theorem Fails.imp {p : Parser α} {q : Parser β} {e : QueryError} (h : Fails p L₁ s e m)
    (hL : ∀ ks, Begins L₁ ks → Begins L₂ ks)
    (hq : ∀ {ks m} s₂ n e, Takes s ks m → Takes s₂ ks n → n.current.kind = m.current.kind → p s₂ = .error e n →
      q s₂ = .error e n) : Fails q L₂ s e m := by
  cases h with
  | unread hend hne ht hb ha => exact .unread hend hne ht (hL _ hb) ha
  | offence fault hend ht hb hfail =>
    exact .offence fault hend ht (hL _ hb) fun s₂ n ht₂ hfront => hq s₂ n _ ht ht₂ hfront (hfail s₂ n ht₂ hfront)
  | query fault hend ht hfail =>
    exact .query fault hend ht fun s₂ n ht₂ hfront => hq s₂ n _ ht ht₂ hfront (hfail s₂ n ht₂ hfront)

/-- At a state, a parser takes a word of the language or fails before a token that could
    not follow, deciding by kinds alone. -/
structure Predicts (p : Parser α) (L : Language TokenKind) (s : ParserState) : Prop where
  ok : ∀ {a m}, p s = .ok a m → ∃ ks ∈ L, .endOfInput ∉ ks ∧ Takes s ks m ∧
    ∀ s₂ n, Takes s₂ ks n → n.current.kind = m.current.kind → p s₂ = .ok a n
  error : ∀ {e m}, p s = .error e m → Fails p L s e m

namespace Predicts

variable {p q : Parser α} {f : α → Parser β}

theorem mono (h : Predicts p L₁ s) (hL : ∀ ks ∈ L₁, ks ∈ L₂) : Predicts p L₂ s where
  ok hp := by
    obtain ⟨ks, hks, hrest⟩ := h.ok hp
    exact ⟨ks, hL ks hks, hrest⟩
  error hp := (h.error hp).imp (fun _ hb => hb.mono hL) fun _ _ _ _ _ _ hfail => hfail

/-- With the same kind in front, the parser is another one. -/
theorem of_eq (h : Predicts q L s) (hpq : ∀ s₂ : ParserState, s₂.current.kind = s.current.kind → p s₂ = q s₂) :
    Predicts p L s where
  ok hp := by
    rw [hpq s rfl] at hp
    obtain ⟨ks, hks, hend, ht, hq⟩ := h.ok hp
    refine ⟨ks, hks, hend, ht, fun s₂ n ht₂ hfront => ?_⟩
    rw [hpq s₂ (ht.front_eq ht₂ hfront)]
    exact hq s₂ n ht₂ hfront
  error hp := by
    rw [hpq s rfl] at hp
    refine (h.error hp).imp (fun _ hb => hb) fun s₂ n e ht ht₂ hfront hfail => ?_
    rw [hpq s₂ (ht.front_eq ht₂ hfront)]
    exact hfail

/-- A parser that looks at the kind in front alone goes on as it does for that kind. -/
theorem front {f : ParserState → Parser α} (hf : ∀ s₂ : ParserState, s₂.current.kind = s.current.kind → f s₂ = f s)
    (h : Predicts (f s) L s) : Predicts (get >>= f) L s :=
  h.of_eq fun s₂ hs₂ => by rw [get_bind, hf s₂ hs₂]

theorem pure (a : α) (s : ParserState) : Predicts (pure a) 1 s where
  ok hp := by
    obtain ⟨rfl, rfl⟩ := pure_eq_ok.mp hp
    refine ⟨[], rfl, List.not_mem_nil, .none s, fun s₂ n ht _ => ?_⟩
    obtain rfl := Takes.nil_iff.mp ht
    rfl
  error hp := by cases hp

theorem malformed (fault : SyntaxFault) (hc : Completable L) (s : ParserState) :
    Predicts (malformed fault : Parser α) L s where
  ok hp := absurd hp (malformed_ne_ok fault _)
  error hp := by
    cases hp
    refine .offence fault List.not_mem_nil (.none s) hc fun s₂ n ht _ => ?_
    obtain rfl := Takes.nil_iff.mp ht
    rfl

theorem unexpected (what : String) (hc : Completable L) (s : ParserState) :
    Predicts (unexpected what : Parser α) L s :=
  front (fun s₂ hs₂ => by rw [hs₂]) (malformed _ hc s)

theorem advance (hne : s.current.kind ≠ .endOfInput) : Predicts advance {[s.current.kind]} s where
  ok hp := by
    refine ⟨[s.current.kind], rfl, by simpa using hne.symm, Takes.single_iff.mpr ⟨rfl, hp⟩, fun s₂ n ht _ => ?_⟩
    exact (Takes.single_iff.mp ht).2
  error hp := .unread List.not_mem_nil hne (.none s) (begins_of_mem rfl) hp

theorem bind (hp : Predicts p L₁ s) (hf : ∀ a m, p s = .ok a m → Predicts (f a) L₂ m) (hc : Completable L₂) :
    Predicts (p >>= f) (L₁ * L₂) s where
  ok hpf := by
    obtain ⟨a, m, ha, hb⟩ := bind_eq_ok.mp hpf
    obtain ⟨ks, hks, hend, ht, hpks⟩ := hp.ok ha
    obtain ⟨ls, hls, hend', ht', hfls⟩ := (hf a m ha).ok hb
    refine ⟨ks ++ ls, Language.append_mem_mul hks hls, by simp [hend, hend'], ht.append ht', ?_⟩
    intro s₂ n ht₂ hfront
    obtain ⟨m₂, hm₂, hn⟩ := Takes.append_iff.mp ht₂
    exact bind_eq_ok.mpr ⟨a, m₂, hpks s₂ m₂ hm₂ (ht'.front_eq hn hfront), hfls m₂ n hn hfront⟩
  error hpf := by
    rcases bind_eq_error.mp hpf with he | ⟨a, l, ha, he⟩
    · exact (hp.error he).imp (fun _ hb => hb.left hc) fun _ _ _ _ _ _ hfail => bind_eq_error.mpr (.inl hfail)
    · obtain ⟨ks, hks, hend, ht, hpks⟩ := hp.ok ha
      -- the second part fails alike behind the same tokens, taken by the first part before
      have hgo : ∀ {ls : List TokenKind} {m : ParserState} (e : ParserState → QueryError), Takes l ls m →
          (∀ s₂ n, Takes s₂ ls n → n.current.kind = m.current.kind → f a s₂ = .error (e n) n) →
          ∀ s₂ n, Takes s₂ (ks ++ ls) n → n.current.kind = m.current.kind → (p >>= f) s₂ = .error (e n) n := by
        intro ls m e hl hfail s₂ n ht₂ hfront
        obtain ⟨l₂, hl₂, hn⟩ := Takes.append_iff.mp ht₂
        exact bind_eq_error.mpr (.inr ⟨a, l₂, hpks s₂ l₂ hl₂ (hl.front_eq hn hfront), hfail l₂ n hn hfront⟩)
      cases (hf a l ha).error he with
      | unread hend' hne hl hb ha =>
        refine .unread (by simp [hend, hend']) hne (ht.append hl) ?_ ha
        rw [List.append_assoc]
        exact hb.right hks
      | offence fault hend' hl hb hfail =>
        exact .offence fault (by simp [hend, hend']) (ht.append hl) (hb.right hks)
          (hgo (fun n => .malformed fault n.current.position) hl hfail)
      | query fault hend' hl hfail =>
        exact .query fault (by simp [hend, hend']) (ht.append hl)
          (hgo (fun n => .query (fault n.current.lexeme)) hl hfail)

theorem bind_pure (h : Predicts p L s) (g : α → β) : Predicts (p >>= fun a => Pure.pure (g a)) L s := by
  rw [← mul_one L]
  exact h.bind (fun a m _ => pure (g a) m) completable_one

theorem map (h : Predicts p L s) (g : α → β) : Predicts (g <$> p) L s := by
  rw [map_eq_pure_bind]
  exact h.bind_pure g

/-- Takes the token in front, and goes on. -/
theorem take {k : TokenKind} (hs : s.current.kind = k) (hk : k ≠ .endOfInput)
    (hp : ∀ m, Parser.advance s = .ok () m → Predicts p L₁ m) (hc : Completable L₁) (hL : ∀ ks ∈ L₁, k :: ks ∈ L) :
    Predicts (Parser.advance >>= fun _ => p) L s := by
  subst hs
  refine ((advance hk).bind (fun _ m ha => hp m ha) hc).mono ?_
  rintro _ ⟨_, rfl, ks, hks, rfl⟩
  exact hL ks hks

/-- Takes the token in front if it is of the kind, and goes on in one of two ways. -/
theorem ite_accept {k : TokenKind} (hk : k ≠ .endOfInput)
    (hp : ∀ m, s.current.kind = k → Parser.advance s = .ok () m → Predicts p L₁ m) (hc : Completable L₁)
    (hL : ∀ ks ∈ L₁, k :: ks ∈ L) (hq : s.current.kind ≠ k → Predicts q L s) :
    Predicts (accept k >>= fun b => if b = true then p else q) L s := by
  by_cases hs : s.current.kind = k
  · have htake := take hs hk (fun m ha => hp m hs ha) hc hL
    exact htake.of_eq fun s₂ hs₂ => accept_bind_of_eq (hs₂.trans hs) _
  · exact (hq hs).of_eq fun s₂ hs₂ => accept_bind_of_ne (by rwa [hs₂]) _

/-- Goes on in one of two ways, by whether the token in front is of the kind. -/
theorem ite_isKind {k : TokenKind} (hp : s.current.kind = k → Predicts p L s)
    (hq : s.current.kind ≠ k → Predicts q L s) : Predicts (isKind k >>= fun b => if b = true then p else q) L s := by
  have heq : ∀ s₂ : ParserState, s₂.current.kind = s.current.kind →
      (isKind k >>= fun b => if b = true then p else q) s₂ = (if s.current.kind = k then p else q) s₂ := by
    intro s₂ hs₂
    show (if (s₂.current.kind == k) = true then p else q) s₂ = _
    rw [hs₂]
    simp only [beq_iff_eq]
  refine Predicts.of_eq ?_ heq
  split
  · next hk => exact hp hk
  · next hk => exact hq hk

/-- A fault of the query, which may show the word in front. -/
theorem queryFault (fault : String → QueryFault) (s : ParserState) :
    Predicts (get >>= fun s => throw (.query (fault s.current.lexeme)) : Parser α) L s where
  ok hp := by cases hp
  error hp := by
    cases hp
    refine .query fault List.not_mem_nil (.none s) fun s₂ n ht _ => ?_
    obtain rfl := Takes.nil_iff.mp ht
    rfl

/-- Takes a token of the kind, or says what was expected. -/
theorem expected {k : TokenKind} (hk : k ≠ .endOfInput) (hspell : Spellable k) (what : String) (s : ParserState) :
    Predicts (accept k >>= fun b => if b = true then Pure.pure () else Parser.unexpected what) {[k]} s := by
  have hc : Completable {[k]} := ⟨[k], rfl, by simpa using hspell⟩
  exact ite_accept hk (fun m _ _ => pure () m) completable_one (by rintro _ rfl; rfl) fun _ => unexpected what hc s

theorem expectMark (m : Mark) (s : ParserState) : Predicts (expectMark m) {[.mark m]} s :=
  expected (by simp) (spellable_mark m) _ s

theorem expectKeyword (k : Keyword) (s : ParserState) : Predicts (expectKeyword k) {[.keyword k]} s :=
  expected (by simp) (spellable_keyword k) _ s

end Predicts

/-! ## Phrases -/

variable {τ υ : Type} {tokens : τ → List TokenKind}

/-- The words that spell a kind of phrase. -/
def spelled (tokens : τ → List TokenKind) : Language TokenKind := Set.range tokens

/-- Phrases of one kind may be among those of another. -/
theorem Predicts.spells {p : Parser α} (h : Predicts p (spelled tokens) s) {tokens' : υ → List TokenKind} (f : τ → υ)
    (hf : ∀ t, tokens' (f t) = tokens t) : Predicts p (spelled tokens') s := by
  refine h.mono ?_
  rintro _ ⟨t, rfl⟩
  exact ⟨f t, hf t⟩

/-- Nothing is taken for a phrase that is empty. -/
theorem pure_predicts (t : τ) (ht : tokens t = []) (a : α) (s : ParserState) :
    Predicts (pure a : Parser α) (spelled tokens) s := by
  refine (Predicts.pure a s).mono ?_
  rintro _ rfl
  exact ⟨t, ht⟩

/-! ## Repetition -/

variable {ι : Type}

/-- Items, each after a separator. -/
def repeated (separator : TokenKind) (item : Parser α) (step : ι → α → ι) (post : α → β → β) (done : ι → β) :
    Nat → ι → Parser β
  | 0, i => pure (done i)
  | bound + 1, i => do
    if ← accept separator then
      let a ← item
      post a <$> repeated separator item step post done bound (step i a)
    else pure (done i)

theorem moreItems_eq (separator : Mark) (item : Parser α) (bound : Nat) :
    moreItems separator item bound =
      repeated (.mark separator) item (fun i _ => i) List.cons (fun _ => []) bound () := by
  induction bound with
  | zero => rfl
  | succ bound ih => simp only [moreItems, repeated, ih, map_eq_pure_bind]

theorem moreTerms_eq (k : Keyword) (join : Condition Operand → Condition Operand → Condition Operand)
    (term : Parser (Condition Operand)) (bound : Nat) (left : Condition Operand) :
    moreTerms k join term bound left = repeated (.keyword k) term join (fun _ c => c) id bound left := by
  induction bound generalizing left with
  | zero => rfl
  | succ bound ih =>
    simp only [moreTerms, repeated, ih, acceptKeyword, id_map']
    rfl

theorem Takes.left_le (h : Takes s ks m) : left m ≤ left s := by
  induction h with
  | none s => exact Nat.le_refl _
  | @token s m s' ks ha _ ih =>
    have hadvance := left_advance ha
    simp only [left] at hadvance ih ⊢
    omega

theorem bind_congr_of_ok {p : Parser α} {f g : α → Parser β} (h : ∀ a m, p s = .ok a m → f a m = g a m) :
    (p >>= f) s = (p >>= g) s := by
  show EStateM.bind p f s = EStateM.bind p g s
  unfold EStateM.bind
  cases hp : p s with
  | ok a m => exact h a m hp
  | error e m => rfl

section Repeated

variable {separator : TokenKind} {item : Parser α} {step : ι → α → ι} {post : α → β → β} {done : ι → β}

theorem current_of_left_eq_zero (h : left s = 0) : s.current.kind = .endOfInput := by
  by_contra hne
  simp [left, hne] at h

/-- No bound that is as large as what is left makes a difference. -/
theorem repeated_bound (hs : separator ≠ .endOfInput) (hitem : ∀ {s a m}, item s = .ok a m → left m ≤ left s)
    {bound bound' : Nat} (h : left s ≤ bound) (h' : left s ≤ bound') (i : ι) :
    repeated separator item step post done bound i s = repeated separator item step post done bound' i s := by
  -- at the end of input there is no separator, whatever the bound
  have hend : ∀ {s : ParserState} {i : ι} (b : Nat), left s = 0 →
      repeated separator item step post done b i s = .ok (done i) s := by
    intro s i b h
    have hne : s.current.kind ≠ separator := by
      rw [current_of_left_eq_zero h]
      exact hs.symm
    cases b with
    | zero => rfl
    | succ b => exact accept_bind_of_ne hne _
  induction bound generalizing bound' s i with
  | zero => rw [hend _ (Nat.le_zero.mp h), hend _ (Nat.le_zero.mp h)]
  | succ bound ih =>
    cases bound' with
    | zero => rw [hend _ (Nat.le_zero.mp h'), hend _ (Nat.le_zero.mp h')]
    | succ bound' =>
      simp only [repeated]
      by_cases hk : s.current.kind = separator
      · rw [accept_bind_of_eq hk, accept_bind_of_eq hk]
        refine bind_congr_of_ok fun _ m ha => ?_
        simp only [if_true]
        refine bind_congr_of_ok fun a n hn => ?_
        have hleft : left n < left s := by
          have hadvance := left_advance ha
          have hle := hitem hn
          have hcurrent : left s = s.feed.upcoming.length + 1 := by simp [left, hk, hs]
          omega
        simp only [map_eq_pure_bind]
        exact bind_congr_of_eq (ih (by omega) (by omega) _) _
      · rw [accept_bind_of_ne hk, accept_bind_of_ne hk]
        rfl

/-- So a repetition with the bound that a parser gives it goes on as it started. -/
theorem repeated_unfold (hs : separator ≠ .endOfInput) (hitem : ∀ {s a m}, item s = .ok a m → left m ≤ left s) (i : ι) :
    (itemBound >>= fun b => repeated separator item step post done b i) =
      accept separator >>= fun b => if b = true then item >>= fun a =>
          post a <$> (itemBound >>= fun b => repeated separator item step post done b (step i a))
        else pure (done i) := by
  funext s
  rw [itemBound_bind, repeated]
  by_cases hk : s.current.kind = separator
  · rw [accept_bind_of_eq hk, accept_bind_of_eq hk]
    refine bind_congr_of_ok fun _ m ha => ?_
    simp only [if_true]
    refine bind_congr_of_ok fun a n hn => ?_
    simp only [map_eq_pure_bind]
    refine bind_congr_of_eq ?_ _
    rw [itemBound_bind]
    refine repeated_bound hs hitem ((hitem hn).trans (left_advance ha)) ?_ _
    unfold left
    split <;> omega
  · rw [accept_bind_of_ne hk, accept_bind_of_ne hk]
    rfl

theorem repeated_predicts (hs : separator ≠ .endOfInput) (h : ∀ s, Predicts item (spelled tokens) s)
    (hc : Completable (spelled tokens)) (i : ι) (s : ParserState) :
    Predicts (itemBound >>= fun b => repeated separator item step post done b i)
      (spelled (Chain.further separator tokens)) s := by
  have hitem : ∀ {s a m}, item s = .ok a m → left m ≤ left s := fun hp => by
    obtain ⟨ks, -, -, ht, -⟩ := (h _).ok hp
    exact ht.left_le
  have hnone : Completable (spelled (Chain.further separator tokens)) := begins_of_mem ⟨[], rfl⟩
  induction hn : left s using Nat.strong_induction_on generalizing s i with
  | _ n ih =>
    rw [repeated_unfold hs hitem]
    have hitems : ∀ m, s.current.kind = separator → advance s = .ok () m →
        Predicts (item >>= fun a => post a <$> (itemBound >>= fun b => repeated separator item step post done b (step i a)))
          (spelled tokens * spelled (Chain.further separator tokens)) m := by
      intro m hk ha
      refine (h m).bind (fun a l hl => (ih _ ?_ _ l rfl).map _) hnone
      have hadvance := left_advance ha
      have hle := hitem hl
      have hcurrent : left s = s.feed.upcoming.length + 1 := by simp [left, hk, hs]
      omega
    refine .ite_accept hs hitems (completable_mul hc hnone) ?_ fun _ => pure_predicts [] rfl _ s
    rintro _ ⟨_, ⟨t, rfl⟩, _, ⟨ts, rfl⟩, rfl⟩
    exact ⟨t :: ts, rfl⟩

end Repeated

end Parser

end EntityQuery
