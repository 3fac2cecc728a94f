/-
  EntityQuery.Proofs.Layout — the layout of a text is nothing to its query
  (`layout_irrelevant`).

  (1) Texts of the same kinds have the same outcome: the same query, or failures that
  say the same at the same token (`sameOutcome_of_kinds`).

  (2) The lexemes of a text have the same kinds behind other gaps, with keywords in any
  ASCII case and each on its own (`tokenize_relaid`, `tokenize_lexeme`).
-/

import EntityQuery.Proofs.Grammar.Offence
import EntityQuery.Proofs.Lexing.Layout

namespace EntityQuery

open Token (Piece Lexes Scans Recased Milder tokenize tokensFrom written)

/-! ## (1) Texts of the same kinds -/

/-- The same query, or failures that say the same; one that has a place has it at the
    token of the same index. -/
inductive SameOutcome (ts ts' : List Token) :
    Except QueryError (Query Operand) → Except QueryError (Query Operand) → Prop
  | query (q : Query Operand) : SameOutcome ts ts' (.ok q) (.ok q)
  | fault (fault : QueryFault) : SameOutcome ts ts' (.error (.query fault)) (.error (.query fault))
  | malformed (fault : SyntaxFault) (i : Nat) (t t' : Token) : ts[i]? = some t → ts'[i]? = some t' →
      SameOutcome ts ts' (.error (.malformed fault t.position)) (.error (.malformed fault t'.position))

theorem Query.parse_of_kinds {text text' : String} {ts ts' : List Token} (h : tokenize text = .ok ts)
    (h' : tokenize text' = .ok ts') (hkinds : ts'.map (·.kind) = ts.map (·.kind)) {q : Query Operand}
    (hq : Query.parse text = .ok q) : Query.parse text' = .ok q := by
  obtain ⟨d, ⟨us, hus, hderives⟩, rfl⟩ := Query.writtenAs_of_parse hq
  obtain rfl := Except.ok.inj (hus.symm.trans h)
  exact Query.parse_of_writtenAs ⟨ts', h', hkinds.trans hderives⟩

namespace Parser

variable {s s' : ParserState}

/-- Where a parser is, it has taken the tokens before the one in front. -/
theorem exists_place {ts : List Token} {ks : List TokenKind} {m : ParserState} (hl : Lexed s)
    (hr : readings s = ts.map .ok) (hend : .endOfInput ∉ ks) (ht : Takes s ks m) :
    ∃ us rest, ts = us ++ m.current :: rest ∧ us.map (·.kind) = ks ∧ readings m = (m.current :: rest).map .ok := by
  obtain ⟨-, us, hus, hsplit⟩ := ht.readings_eq hl hend
  obtain ⟨us', ms, rfl, hus', hms⟩ := List.map_eq_append_iff.mp (hr.symm.trans hsplit)
  obtain rfl := (List.map_inj_right fun _ _ => Except.ok.inj).mp hus'
  obtain ⟨t, rest, rfl, ht, -⟩ := List.map_eq_cons_iff.mp hms
  obtain rfl := Except.ok.inj ht
  exact ⟨us', rest, rfl, hus, hms.symm⟩

/-- A parser of another text of the same kinds can be at the same place. -/
theorem exists_same_place {us ts' rest : List Token} {t : Token} (hl' : Lexed s') (hr' : readings s' = ts'.map .ok)
    (hkinds : ts'.map (·.kind) = (us ++ t :: rest).map (·.kind)) :
    ∃ n, Takes s' (us.map (·.kind)) n ∧ n.current.kind = t.kind ∧ ts'[us.length]? = some n.current := by
  rw [List.map_append, List.map_cons] at hkinds
  obtain ⟨us', ms, rfl, hus', hms⟩ := List.map_eq_append_iff.mp hkinds
  obtain ⟨t', rest', rfl, ht', -⟩ := List.map_eq_cons_iff.mp hms
  rw [List.map_append, List.map_cons] at hr'
  obtain ⟨n, hn, rfl⟩ := takes_of_readings hl' hr'
  have hlength : us.length = us'.length := by simpa using (congrArg List.length hus').symm
  exact ⟨n, hus' ▸ hn, ht', by simp [hlength]⟩

end Parser

theorem sameOutcome_of_kinds {text text' : String} {ts ts' : List Token} (h : tokenize text = .ok ts)
    (h' : tokenize text' = .ok ts') (hkinds : ts'.map (·.kind) = ts.map (·.kind))
    (hwords : ts'.map (·.lexeme) = ts.map (·.lexeme)) :
    SameOutcome ts ts' (Query.parse text) (Query.parse text') := by
  obtain ⟨s, hs, hl, hr⟩ := Parser.readings_of_tokenize h
  obtain ⟨s', hs', hl', hr'⟩ := Parser.readings_of_tokenize h'
  cases hq : Query.parse text with
  | ok q =>
    rw [Query.parse_of_kinds h h' hkinds hq]
    exact .query q
  | error e =>
    rw [Query.parse_of_start hs] at hq
    cases hfail : Parser.query s with
    | ok q m => rw [hfail] at hq; cases hq
    | error e' m =>
      rw [hfail] at hq
      obtain rfl := Except.error.inj hq
      rw [Query.parse_of_start hs']
      cases Parser.query_fails hl hfail with
      | unread hend hne ht hb ha =>
        obtain ⟨us, rest, -, -, hread⟩ := Parser.exists_place hl hr hend ht
        obtain ⟨l, hadvance⟩ := Parser.advance_of_collect hne (Parser.collect_eq_ok.mpr hread)
        rw [hadvance] at ha
        cases ha
      | offence fault hend ht hb hagain =>
        obtain ⟨us, rest, rfl, rfl, -⟩ := Parser.exists_place hl hr hend ht
        obtain ⟨n, hn, hfront, hi⟩ := Parser.exists_same_place hl' hr' hkinds
        rw [hagain s' n hn hfront]
        exact .malformed fault us.length m.current n.current (by simp) hi
      | query fault hend ht hagain =>
        obtain ⟨us, rest, rfl, rfl, -⟩ := Parser.exists_place hl hr hend ht
        obtain ⟨n, hn, hfront, hi⟩ := Parser.exists_same_place hl' hr' hkinds
        have hword : n.current.lexeme = m.current.lexeme := by
          have hword := congrArg (·[us.length]?) hwords
          simpa [hi] using hword
        rw [hagain s' n hn hfront, hword]
        exact .fault _

/-! ## (2) The lexemes in other gaps -/

/-- Lexemes with a gap before each and one behind them all. -/
def layOut (gaps : List (List Char)) (words : List String) (last : List Char) : String :=
  String.ofList (((gaps.zip words).flatMap fun x => x.1 ++ x.2.toList) ++ last)

/-- Blanks for so many lexemes. -/
structure BlankGaps (gaps : List (List Char)) (last : List Char) (n : Nat) : Prop where
  length : gaps.length = n
  blank : ∀ gap ∈ gaps, Blank gap
  last : Blank last

/-- A gap is empty only where one was. -/
def KeepsGaps (gaps : List (List Char)) (ps : List Piece) : Prop :=
  List.Forall₂ (fun gap p => gap = [] → p.gap = []) gaps ps

/-- The lexemes of tokens, keywords in any ASCII case. -/
def Respelled (us : List Token) (words : List String) : Prop :=
  List.Forall₂ (fun t word => word = t.lexeme ∨ (∃ k, t.kind = .keyword k) ∧ Recased word.toList t.lexeme.toList)
    us words

theorem layOut_pieces (ps : List Piece) (last : List Char) :
    layOut (ps.map (·.gap)) (ps.map fun p => String.ofList p.lexeme) last = String.ofList (written ps ++ last) := by
  have h : ((ps.map (·.gap)).zip (ps.map fun p => String.ofList p.lexeme)).flatMap (fun x => x.1 ++ x.2.toList) =
      written ps := by
    rw [List.zip_map', List.flatMap_map]
    simp only [String.toList_ofList]
    rfl
  rw [layOut, h]

/-- Pieces for other gaps and other cases of the keywords. -/
theorem exists_rewritten {position : Position} {ps : List Piece} {gaps : List (List Char)} {words : List String}
    (hlength : gaps.length = ps.length) (hblank : ∀ gap ∈ gaps, Blank gap)
    (hwords : Respelled (tokensFrom position ps) words) :
    ∃ ps' : List Piece, List.Forall₂ Piece.Rewrites ps' ps ∧ ps'.map (·.gap) = gaps ∧
      ps'.map (fun p => String.ofList p.lexeme) = words := by
  induction ps generalizing position gaps words with
  | nil =>
    obtain rfl := List.length_eq_zero_iff.mp hlength
    cases hwords
    exact ⟨[], .nil, rfl, rfl⟩
  | cons p ps ih =>
    cases gaps with
    | nil => cases hlength
    | cons gap gaps =>
      cases hwords with
      | @cons _ word _ words hword hwords =>
        obtain ⟨ps', hps', hgaps, hwords'⟩ := ih (Nat.succ.inj hlength)
          (fun g hg => hblank g (List.mem_cons_of_mem _ hg)) hwords
        refine ⟨⟨gap, p.kind, word.toList⟩ :: ps', .cons ⟨rfl, hblank gap List.mem_cons_self, ?_⟩ hps', ?_, ?_⟩
        · refine hword.imp (fun h => ?_) fun h => ?_
          · rw [h]
            exact String.toList_ofList
          · simpa [Piece.token] using h
        · rw [List.map_cons, hgaps]
        · rw [List.map_cons, hwords', String.ofList_toList]

/-- With gaps wherever there were some, the lexemes are read again. -/
theorem tokenize_relaid {ps : List Piece} {last : List Char} (hl : Lexes ps last) {position : Position}
    {gaps' : List (List Char)} {words : List String} {last' : List Char} (hgaps : BlankGaps gaps' last' ps.length)
    (hkeep : KeepsGaps gaps'.tail ps.tail) (hwords : Respelled (tokensFrom position ps) words) :
    ∃ ts' e, tokenize (layOut gaps' words last') = .ok (ts' ++ [e]) ∧ e.kind = .endOfInput ∧ e.lexeme = "" ∧
      ts'.map (·.kind) = ps.map (·.kind) ∧ ts'.map (·.lexeme) = words := by
  obtain ⟨ps', hps', rfl, rfl⟩ := exists_rewritten hgaps.length hgaps.blank hwords
  rw [KeepsGaps, ← List.map_tail, List.forall₂_map_left_iff] at hkeep
  have hm : Milder last' last := by
    cases last' with
    | nil => exact .of_nil last
    | cons c last' => exact .of_blank (hgaps.last c List.mem_cons_self) _ _
  have hl' : Lexes ps' last' := hl.rewritten hps' hkeep hm
  refine ⟨_, _, Token.tokenize_eq_ok.mpr ⟨ps', last', ?_, hl', hgaps.last, rfl⟩, rfl, rfl, ?_, ?_⟩
  · rw [layOut_pieces, String.toList_ofList]
  · rw [Token.map_kind_tokensFrom, Token.map_kind_of_rewrites hps']
  · exact Token.map_lexeme_tokensFrom _ _

theorem respelled_self (us : List Token) : Respelled us (us.map (·.lexeme)) :=
  List.forall₂_map_right_iff.mpr (List.forall₂_same.mpr fun _ _ => .inl rfl)

/-- Gaps that are not empty are missing nowhere. -/
theorem keepsGaps_of_ne_nil {gaps : List (List Char)} {ps : List Piece} (hlength : gaps.length = ps.length)
    (h : ∀ gap ∈ gaps, gap ≠ []) : KeepsGaps gaps ps := by
  induction gaps generalizing ps with
  | nil =>
    obtain rfl := List.length_eq_zero_iff.mp hlength.symm
    exact .nil
  | cons gap gaps ih =>
    cases ps with
    | nil => cases hlength
    | cons p ps =>
      exact .cons (fun hg => absurd hg (h gap List.mem_cons_self))
        (ih (Nat.succ.inj hlength) fun g hg => h g (List.mem_cons_of_mem _ hg))

theorem tokenize_lexeme {kind : TokenKind} {w r : List Char} (h : Scans kind w r) :
    ∃ t e, tokenize (String.ofList w) = .ok [t, e] ∧ t.kind = kind ∧ t.lexeme = String.ofList w ∧
      e.kind = .endOfInput := by
  have hl : Lexes [⟨[], kind, w⟩] [] := ⟨List.forall_mem_nil _, h.of_milder (.of_nil r), trivial⟩
  refine ⟨_, _, Token.tokenize_eq_ok.mpr ⟨[⟨[], kind, w⟩], [], ?_, hl, List.forall_mem_nil _, rfl⟩, rfl, rfl, rfl⟩
  simp [written, Piece.chars]

/-- A text is its lexemes, laid out somehow. Laid out with any blanks at both ends and
    some between any two of them, they are tokens of the same kinds, and the text has the
    same query or fails alike at the same token. In any ASCII case of its keywords, with
    the same gaps or with others, a query stays the same one. And each lexeme is a token
    of its kind on its own. -/
theorem layout_irrelevant {text : String} {ts : List Token} (h : tokenize text = .ok ts) :
    ∃ us e gaps last, ts = us ++ [e] ∧ e.kind = .endOfInput ∧ BlankGaps gaps last us.length ∧
      text = layOut gaps (us.map (·.lexeme)) last ∧
      (∀ gaps' last', BlankGaps gaps' last' us.length → (∀ gap ∈ gaps'.tail, gap ≠ []) →
        let text' := layOut gaps' (us.map (·.lexeme)) last'
        ∃ ts', tokenize text' = .ok ts' ∧ ts'.map (·.kind) = ts.map (·.kind) ∧
          ts'.map (·.lexeme) = ts.map (·.lexeme) ∧ SameOutcome ts ts' (Query.parse text) (Query.parse text')) ∧
      (∀ q words, Query.parse text = .ok q → Respelled us words →
        Query.parse (layOut gaps words last) = .ok q ∧
          ∀ gaps' last', BlankGaps gaps' last' us.length → (∀ gap ∈ gaps'.tail, gap ≠ []) →
            Query.parse (layOut gaps' words last') = .ok q) ∧
      ∀ t ∈ us, ∃ t' e', tokenize t.lexeme = .ok [t', e'] ∧ t'.kind = t.kind ∧ t'.lexeme = t.lexeme ∧
        e'.kind = .endOfInput := by
  obtain ⟨ps, last, htext, hl, hlast, rfl⟩ := Token.tokenize_eq_ok.mp h
  have hlength := Token.length_tokensFrom .start ps
  have hgaps : BlankGaps (ps.map (·.gap)) last ps.length :=
    ⟨List.length_map _, List.forall_mem_map.mpr fun p hp => (hl.mem hp).1, hlast⟩
  have hkeep : ∀ {gaps' last'}, BlankGaps gaps' last' ps.length → (∀ gap ∈ gaps'.tail, gap ≠ []) →
      KeepsGaps gaps'.tail ps.tail := fun hg hne => keepsGaps_of_ne_nil (by simp [hg.length]) hne
  refine ⟨tokensFrom .start ps, _, ps.map (·.gap), last, rfl, rfl, hlength ▸ hgaps, ?_, ?_, ?_, ?_⟩
  · rw [Token.map_lexeme_tokensFrom, layOut_pieces, ← htext, String.ofList_toList]
  · intro gaps' last' hg hne
    rw [hlength] at hg
    obtain ⟨ts', e, ht, hend, hempty, hkinds, hwords⟩ :=
      tokenize_relaid hl hg (hkeep hg hne) (respelled_self (tokensFrom .start ps))
    rw [← Token.map_kind_tokensFrom .start] at hkinds
    refine ⟨ts' ++ [e], ht, ?_, ?_, sameOutcome_of_kinds h ht ?_ ?_⟩ <;> simp [hkinds, hwords, hend, hempty]
  · intro q words hq hwords
    have hsame : ∀ {gaps' last'}, BlankGaps gaps' last' ps.length → KeepsGaps gaps'.tail ps.tail →
        Query.parse (layOut gaps' words last') = .ok q := by
      intro gaps' last' hg hk
      obtain ⟨ts', e, ht, hend, -, hkinds, -⟩ := tokenize_relaid hl hg hk hwords
      rw [← Token.map_kind_tokensFrom .start] at hkinds
      exact Query.parse_of_kinds h ht (by simp [hkinds, hend]) hq
    constructor
    · refine hsame hgaps ?_
      rw [KeepsGaps, ← List.map_tail, List.forall₂_map_left_iff]
      exact List.forall₂_same.mpr fun _ _ => id
    · intro gaps' last' hg hne
      rw [hlength] at hg
      exact hsame hg (hkeep hg hne)
  · intro t ht
    obtain ⟨p, hp, hkind, hword⟩ := Token.exists_piece_of_mem ht
    rw [hkind, hword]
    exact tokenize_lexeme (hl.mem hp).2

/-- A lookup without a gap, laid out on two lines and shouted. -/
theorem layout_irrelevant_get :
    let text := "get@id"
    let us : List Token := [⟨.keyword .get, "get", .start⟩, ⟨.param "id", "@id", ⟨3, 1, 4⟩⟩]
    let q : Query Operand := .get [.param "id"]
    tokenize text = .ok (us ++ [⟨.endOfInput, "", ⟨6, 1, 7⟩⟩]) ∧ Query.parse text = .ok q ∧
      (∃ ts', tokenize " get\n@id" = .ok ts' ∧
        ts'.map (·.kind) = [.keyword .get, .param "id", .endOfInput]) ∧
      Query.parse "GET\t@id " = .ok q ∧
      ∃ t e, tokenize "@id" = .ok [t, e] ∧ t.kind = .param "id" := by
  intro text us q
  have htokens : tokenize text = .ok (us ++ [⟨.endOfInput, "", ⟨6, 1, 7⟩⟩]) := by decide +kernel
  have hquery : Query.parse text = .ok q :=
    Query.parse_of_writtenAs (d := .get ⟨.param "id", []⟩) ⟨_, htokens, rfl⟩
  obtain ⟨us', e, gaps, last, hus, -, -, -, hrelaid, hrespelled, hlexemes⟩ := layout_irrelevant htokens
  obtain ⟨rfl, -⟩ := List.append_inj' hus rfl
  have hshouted : Respelled us ["GET", "@id"] :=
    .cons (.inr ⟨⟨.get, rfl⟩, (by decide : "GET".toList.map Char.toLower = "get".toList.map Char.toLower)⟩)
      (.cons (.inl rfl) .nil)
  have htwo : BlankGaps [[' '], ['\n']] [] us.length := ⟨rfl, by decide, List.forall_mem_nil _⟩
  have htabbed : BlankGaps [[], ['\t']] [' '] us.length := ⟨rfl, by decide, by decide⟩
  refine ⟨htokens, hquery, ?_, ?_, ?_⟩
  · obtain ⟨ts', ht, hkinds, -⟩ := hrelaid _ _ htwo (by decide)
    have htext : layOut [[' '], ['\n']] (us.map (·.lexeme)) [] = " get\n@id" := by decide +kernel
    rw [htext] at ht
    exact ⟨ts', ht, hkinds⟩
  · have hagain := (hrespelled q _ hquery hshouted).2 _ _ htabbed (by decide)
    have htext : layOut [[], ['\t']] ["GET", "@id"] [' '] = "GET\t@id " := by decide +kernel
    rwa [htext] at hagain
  · obtain ⟨t, e', ht, hk, -⟩ := hlexemes us[1] (by simp [us])
    exact ⟨t, e', ht, hk⟩

end EntityQuery
