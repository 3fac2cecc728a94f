/-
  EntityQuery.Proofs.Lexing.Spelling — the kinds of the tokens that a text spells.

  Two texts with a blank between them spell what they spell on their own, one after
  the other (`Spells.spaced`). So a query can be put together from its front and from
  any text that is one token: an identifier, or a string between double quotes that
  has none itself.
-/

import EntityQuery.Proofs.Lexing.Layout

namespace EntityQuery.Token

/-- The text is read as tokens of these kinds, up to the end of input. -/
def Spells (text : String) (kinds : List TokenKind) : Prop :=
  ∃ ts, tokenize text = .ok ts ∧ ts.map (·.kind) = kinds ++ [.endOfInput]

/-- The text is one identifier, all of it: there is no blank before or behind its name. -/
def IsIdentifier (name : String) : Prop := Spells name [.identifier name]

theorem spells_of_tokens {text : String} {kinds : List TokenKind}
    (h : (tokenize text).toOption.map (·.map (·.kind)) = some (kinds ++ [.endOfInput])) : Spells text kinds := by
  obtain ⟨ts, hts, hkinds⟩ := Option.map_eq_some_iff.mp h
  exact ⟨ts, except_toOption_eq_some.mp hts, hkinds⟩

theorem spells_iff {text : String} {kinds : List TokenKind} : Spells text kinds ↔
    ∃ ps last, text.toList = written ps ++ last ∧ Lexes ps last ∧ Blank last ∧ ps.map (·.kind) = kinds := by
  constructor
  · rintro ⟨ts, hts, hkinds⟩
    obtain ⟨ps, last, htext, hl, hb, rfl⟩ := tokenize_eq_ok.mp hts
    rw [List.map_append, map_kind_tokensFrom] at hkinds
    exact ⟨ps, last, htext, hl, hb, List.append_cancel_right hkinds⟩
  · rintro ⟨ps, last, htext, hl, hb, rfl⟩
    refine ⟨_, tokenize_eq_ok.mpr ⟨ps, last, htext, hl, hb, rfl⟩, ?_⟩
    rw [List.map_append, map_kind_tokensFrom]
    rfl

/-- A blank keeps two texts apart. -/
theorem Spells.spaced {a b : String} {ks ls : List TokenKind} (ha : Spells a ks) (hb : Spells b ls) :
    Spells (a ++ " " ++ b) (ks ++ ls) := by
  obtain ⟨ps, last, hatext, hps, hlast, rfl⟩ := spells_iff.mp ha
  obtain ⟨qs, end_, hbtext, hqs, hend, rfl⟩ := spells_iff.mp hb
  have htext : (a ++ " " ++ b).toList = written ps ++ ((last ++ [' ']) ++ (written qs ++ end_)) := by
    simp [hatext, hbtext]
  have hgap : Blank (last ++ [' ']) := by
    intro c hc
    rcases List.mem_append.mp hc with hin | hspace
    · exact hlast c hin
    · obtain rfl := List.mem_singleton.mp hspace
      decide
  have hmilder : ∀ cs, Milder ((last ++ [' ']) ++ cs) last := fun cs => .of_gap hgap (by simp) cs last
  rw [spells_iff]
  cases qs with
  | nil =>
    refine ⟨ps, (last ++ [' ']) ++ end_, htext, hps.of_milder (hmilder _), ?_, by simp⟩
    exact fun c hc => (List.mem_append.mp hc).elim (hgap c) (hend c)
  | cons q qs =>
    -- The blanks between the texts stand before the first lexeme of the second one.
    let first : Piece := ⟨(last ++ [' ']) ++ q.gap, q.kind, q.lexeme⟩
    obtain ⟨hq, hscans, hrest⟩ := hqs
    have hwritten : written (first :: qs) = (last ++ [' ']) ++ written (q :: qs) := by
      simp only [written_cons, List.append_assoc, first]
    have hfirst : Lexes (first :: qs) end_ := ⟨fun c hc => (List.mem_append.mp hc).elim (hgap c) (hq c), hscans, hrest⟩
    refine ⟨ps ++ first :: qs, end_, ?_, Lexes.append (hps.of_milder ?_) hfirst, hend, by simp [first]⟩
    · rw [htext, written_append, hwritten]
      simp only [List.append_assoc]
    · rw [hwritten, List.append_assoc]
      exact hmilder _

/-- A string without double quotes, between double quotes. -/
theorem spells_string {s : String} (h : '"' ∉ s.toList) : Spells ("\"" ++ s ++ "\"") [.string s] := by
  have hchars : ∀ c ∈ s.toList, (c != '"') = true := fun c hc => bne_iff_ne.mpr fun heq => h (heq ▸ hc)
  have htake : (s.toList ++ ['"']).takeWhile (· != '"') = s.toList := by
    rw [List.takeWhile_append_of_pos hchars]
    exact List.append_nil _
  have hdrop : (s.toList ++ ['"']).dropWhile (· != '"') = ['"'] := List.dropWhile_append_of_pos hchars
  have hscan : scan '"' ((s.toList ++ ['"']) ++ []) = ⟨.ok (.string s), '"' :: (s.toList ++ ['"']), []⟩ := by
    rw [List.append_nil]
    show scanString '"' (s.toList ++ ['"']) = _
    rw [scanString, htake, hdrop, String.ofList_toList]
    rfl
  refine spells_iff.mpr ⟨[⟨[], .string s, '"' :: (s.toList ++ ['"'])⟩], [], ?_, ⟨nofun, ?_, trivial⟩, nofun, rfl⟩
  · simp [written, Piece.chars]
  · exact ⟨'"', s.toList ++ ['"'], rfl, by decide, hscan⟩

end EntityQuery.Token
