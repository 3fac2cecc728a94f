/-
  EntityQuery.Proofs.ValidPrefix — a syntax error is at the first token that fits no
  query (`syntax_error_at_first_offence`).

  (1) Tokens that begin a query can be finished in writing, behind any blanks
  (`exists_spelling`).

  (2) A text fails at a reading behind tokens that begin a query, and if that reading
  is a token, the tokens up to it begin none (`exists_offence`).
-/

import EntityQuery.Proofs.Grammar.Offence
import EntityQuery.Proofs.Lexing.Layout

namespace EntityQuery

open EntityQuery.Parser (Begins spelled)
open Token (Piece Lexes Feed Reading tokenize tokensFrom written)

/-! ## (1) Finishing a query -/

/-- Spellable tokens can be written behind a gap. -/
theorem exists_spelling {ls : List TokenKind} (hls : ∀ k ∈ ls, Spellable k) {gap : List Char} (hg : Blank gap) :
    ∃ qs last, qs.map (·.kind) = ls ∧ Lexes qs last ∧ Blank last ∧ gap <+: written qs ++ last := by
  induction ls generalizing gap with
  | nil => exact ⟨[], gap, rfl, trivial, hg, List.prefix_rfl⟩
  | cons k ls ih =>
    obtain ⟨w, hw⟩ := hls k List.mem_cons_self
    have hspace : Blank [' '] := List.forall_mem_singleton.mpr rfl
    obtain ⟨qs, last, rfl, hl, hlast, r, hr⟩ := ih (fun l hl => hls l (List.mem_cons_of_mem _ hl)) hspace
    have hscans : Token.Scans k w (written qs ++ last) := by
      rw [← hr]
      exact hw.of_milder (.of_gap hspace (List.cons_ne_nil _ _) _ _)
    refine ⟨⟨gap, k, w⟩ :: qs, last, rfl, ⟨hg, hscans, hl⟩, hlast, ?_⟩
    rw [Token.written_cons, List.append_assoc]
    exact List.prefix_append ..

/-- A text whose first tokens begin a query goes on as one, from any place before the
    next lexeme. -/
theorem exists_continuation {ps : List Piece} {r gap : List Char} (hl : Lexes ps r) (hg : Blank gap)
    (hb : Begins (spelled QueryPhrase.tokens) (ps.map (·.kind))) :
    ∃ more q, Query.parse (String.ofList (written ps ++ gap ++ ' ' :: more)) = .ok q := by
  obtain ⟨ls, ⟨d, hd⟩, hspell⟩ := hb
  have hg' : Blank (gap ++ [' ']) := List.forall_mem_append.mpr ⟨hg, List.forall_mem_singleton.mpr rfl⟩
  obtain ⟨qs, last, rfl, hqs, hlast, more, hmore⟩ := exists_spelling hspell hg'
  have hps : Lexes ps (written qs ++ last) := by
    rw [← hmore]
    exact hl.of_milder (.of_gap hg' (by simp) _ _)
  refine ⟨more, d.query, Query.parse_of_writtenAs ⟨_, Token.tokenize_eq_ok.mpr
    ⟨ps ++ qs, last, ?_, hps.append hqs, hlast, rfl⟩, ?_⟩⟩
  · rw [String.toList_ofList, Token.written_append, List.append_assoc (written ps) (written qs), ← hmore]
    simp
  · rw [QueryPhrase.Derives, List.map_append, Token.map_kind_tokensFrom, List.map_append]
    exact congrArg (· ++ [TokenKind.endOfInput]) hd.symm

/-! ## (2) The offence -/

/-- No query has tokens that begin so. -/
def Query.NoneBegins (ks : List TokenKind) : Prop :=
  ∀ text ts q, tokenize text = .ok ts → Query.parse text = .ok q → ¬ ks <+: ts.map (·.kind)

theorem noneBegins_of_fails {ks : List TokenKind} {k : TokenKind}
    (h : ∀ s n, Parser.Takes s ks n → n.current.kind = k → ∃ e m, Parser.query s = .error e m) :
    Query.NoneBegins (ks ++ [k]) := by
  intro text ts q ht hq hprefix
  obtain ⟨more, hmore⟩ := hprefix
  rw [List.append_assoc] at hmore
  obtain ⟨us, vs, rfl, rfl, hvs⟩ := List.map_eq_append_iff.mp hmore.symm
  obtain ⟨t, rest, rfl, rfl, -⟩ := List.map_eq_cons_iff.mp hvs
  obtain ⟨s, hs, hl, hr⟩ := Parser.readings_of_tokenize ht
  rw [List.map_append, List.map_cons] at hr
  obtain ⟨n, hn, rfl⟩ := Parser.takes_of_readings hl hr
  obtain ⟨e, m, hfail⟩ := h s n hn rfl
  rw [Query.parse_of_start hs, hfail] at hq
  cases hq

/-- A reading that is a syntax error, or the token it is at. -/
def Token.Reading.Faulty (x : Reading) (fault : SyntaxFault) (p : Position) : Prop :=
  x = .error (.malformed fault p) ∨ ∃ t, x = .ok t ∧ t.position = p

theorem Token.Reading.Faulty.offset {x : Reading} {fault : SyntaxFault} {p : Position} (h : Reading.Faulty x fault p) :
    Reading.offset x = p.offset := by
  rcases h with rfl | ⟨t, rfl, rfl⟩ <;> rfl

/-- A text with a syntax error fails at a reading behind tokens that begin a query. If
    it is a token, no query begins with these tokens and it. -/
theorem exists_offence {text : String} {fault : SyntaxFault} {p : Position}
    (h : Query.parse text = .error (.malformed fault p)) :
    ∃ us x rest, (Feed.ofText text).readings = us.map .ok ++ x :: rest ∧ Reading.Faulty x fault p ∧
      Begins (spelled QueryPhrase.tokens) (us.map (·.kind)) ∧
      ∀ t, x = .ok t → Query.NoneBegins ((us ++ [t]).map (·.kind)) := by
  cases hs : Parser.start text with
  | error e =>
    rw [Query.parse, hs] at h
    obtain rfl := Except.error.inj h
    obtain ⟨rest, hrest⟩ := Parser.readings_head (Feed.ofText text)
    have hnext : (Feed.ofText text).next.1 = .error (.malformed fault p) := by
      rw [Parser.start] at hs
      split at hs
      · cases hs
      · next hn => rw [hn, Except.error.inj hs]
    rw [hnext] at hrest
    refine ⟨[], _, rest, hrest, .inl rfl, Parser.completable_query, fun t ht => ?_⟩
    cases ht
  | ok s =>
    obtain ⟨hl, hr⟩ := Parser.start_readings hs
    rw [Query.parse_of_start hs] at h
    cases hq : Parser.query s with
    | ok q m => rw [hq] at h; cases h
    | error e m =>
      rw [hq] at h
      obtain rfl := Except.error.inj h
      cases Parser.query_fails hl hq with
      | @unread ks n _ _ hend hne ht hb ha =>
        obtain ⟨-, us, rfl, hus⟩ := ht.readings_eq hl hend
        obtain ⟨rest, hrest⟩ := Parser.readings_head n.feed
        have hnext : n.feed.next.1 = .error (.malformed fault p) := by
          rw [Parser.advance] at ha
          split at ha
          · cases ha
          · next hn => rw [hn]; cases ha; rfl
        rw [Parser.readings_of_notEnd hne, hrest, hnext] at hus
        refine ⟨us ++ [n.current], .error (.malformed fault p), rest, ?_, .inl rfl, by simpa using hb, fun t ht => ?_⟩
        · rw [hr, hus, List.map_append, List.append_assoc]
          rfl
        · cases ht
      | offence fault hend ht hb hfail =>
        obtain ⟨-, us, rfl, hus⟩ := ht.readings_eq hl hend
        refine ⟨us, .ok m.current, _, hr.trans hus, .inr ⟨_, rfl, rfl⟩, hb, ?_⟩
        intro t hx
        obtain rfl := Except.ok.inj hx
        rw [List.map_append]
        exact noneBegins_of_fails fun s₂ n hn hfront => ⟨_, _, hfail s₂ n hn hfront⟩

/-- A syntax error is that of a lexeme behind tokens, or it is at the first token that
    fits no query. What stands before it goes on as a query, behind a blank, and no
    query has the tokens before it and the one that is there. -/
theorem syntax_error_at_first_offence {text : String} {fault : SyntaxFault} {p : Position}
    (h : Query.parse text = .error (.malformed fault p)) :
    (∃ c more q, Text.isBlank c = true ∧
      Query.parse (String.ofList (text.toList.take p.offset ++ c :: more)) = .ok q) ∧
    (∃ (us : List Token) (x : Reading) (rest : List Reading), (Feed.ofText text).readings = us.map .ok ++ x :: rest ∧
      Reading.Faulty x fault p) ∧
    ∀ us t rest, (Feed.ofText text).readings = us.map .ok ++ .ok t :: rest → t.position = p →
      ∀ text' ts' q, tokenize text' = .ok ts' → Query.parse text' = .ok q →
        ¬ (us ++ [t]).map (·.kind) <+: ts'.map (·.kind) := by
  obtain ⟨us, x, rest, hreadings, hfaulty, hb, hnone⟩ := exists_offence h
  have hoffset := hfaulty.offset
  refine ⟨?_, ⟨us, x, rest, hreadings, hfaulty⟩, ?_⟩
  · obtain ⟨ps, r, gap, hl, hgap, rfl, hbefore⟩ := Token.take_offset hreadings
    rw [Token.map_kind_tokensFrom] at hb
    obtain ⟨more, q, hq⟩ := exists_continuation hl hgap hb
    refine ⟨' ', more, q, rfl, ?_⟩
    rwa [← hoffset, hbefore]
  · intro us' t rest' hreadings' ht
    have hsame : Reading.offset (.ok t) = Reading.offset x := by
      rw [hoffset, ← ht]
      rfl
    obtain ⟨rfl, rfl⟩ := Token.reading_unique hreadings hreadings' hsame
    exact hnone t rfl

/-- A key without a comma before it: what stands before it is a lookup that ends there. -/
theorem syntax_error_at_first_offence_comma :
    let text := "get @a @b"
    let us : List Token := [⟨.keyword .get, "get", .start⟩, ⟨.param "a", "@a", ⟨4, 1, 5⟩⟩]
    let t : Token := ⟨.param "b", "@b", ⟨7, 1, 8⟩⟩
    Query.parse text = .error (.malformed (.expected "end of input" t.kind) t.position) ∧
      tokenize text = .ok (us ++ t :: [⟨.endOfInput, "", ⟨9, 1, 10⟩⟩]) ∧
      (∃ c more q, Text.isBlank c = true ∧ Query.parse (String.ofList ("get @a ".toList ++ c :: more)) = .ok q) ∧
      ∀ text' ts' q, tokenize text' = .ok ts' → Query.parse text' = .ok q →
        ¬ [.keyword .get, .param "a", .param "b"] <+: ts'.map (·.kind) := by
  intro text us t
  have hparse : Query.parse text = .error (.malformed (.expected "end of input" t.kind) t.position) := by
    have hfault : (match Query.parse text with | .ok _ => none | .error e => some e) =
        some (.malformed (.expected "end of input" t.kind) t.position) := by decide +kernel
    split at hfault
    · cases hfault
    · next e he => rw [he, Option.some.inj hfault]
  have htokens : tokenize text = .ok (us ++ t :: [⟨.endOfInput, "", ⟨9, 1, 10⟩⟩]) := by decide +kernel
  have hreadings : (Feed.ofText text).readings = us.map .ok ++ .ok t :: [.ok ⟨.endOfInput, "", ⟨9, 1, 10⟩⟩] :=
    Parser.collect_eq_ok.mp htokens
  obtain ⟨hbefore, -, hnone⟩ := syntax_error_at_first_offence hparse
  have htext : text.toList.take t.position.offset = "get @a ".toList := by decide +kernel
  rw [htext] at hbefore
  exact ⟨hparse, htokens, hbefore, hnone us t _ hreadings rfl⟩

end EntityQuery
