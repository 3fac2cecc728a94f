/-
  EntityQuery.Proofs.Lexing.Layout — a text as lexemes with blanks between them.

  (1) Pieces. A piece is a lexeme with the blanks before it. What is read off a text is
  read piece by piece (`read_pieces`), every run of tokens is one of pieces
  (`pieces_of_readings`), and a text has tokens exactly when it is pieces and a blank
  end (`tokenize_eq_ok`).

  (2) Places. Each reading starts behind the blanks before it (`next_offset`), and
  every one lies behind those before it (`read_sorted`), so no two start at the same
  place (`reading_unique`).

  (3) Other gaps. The same lexemes can be read with other blanks between them, as long
  as none is missing where there was one, and keywords in any ASCII case
  (`Lexes.rewritten`).
-/

import EntityQuery.Proofs.Grammar.Text
import EntityQuery.Proofs.Lexing.Lexeme
import Mathlib.Data.List.Forall2

namespace EntityQuery

def Blank (cs : List Char) : Prop := ∀ c ∈ cs, Text.isBlank c = true

instance (cs : List Char) : Decidable (Blank cs) := decidable_of_iff (cs.all Text.isBlank = true) List.all_eq_true

theorem Position.after_append (p : Position) (cs ds : List Char) : p.after (cs ++ ds) = (p.after cs).after ds :=
  List.foldl_append

theorem Position.offset_after (p : Position) (cs : List Char) : (p.after cs).offset = p.offset + cs.length := by
  induction cs generalizing p with
  | nil => rfl
  | cons c cs ih =>
    have hnext : (p.next c).offset = p.offset + 1 := by
      unfold next
      split <;> rfl
    show ((p.next c).after cs).offset = _
    rw [ih, hnext, List.length_cons]
    omega

namespace Token

/-! ## (1) Pieces -/

/-- A lexeme, what it is, and the blanks before it. -/
structure Piece where
  gap : List Char
  kind : TokenKind
  lexeme : List Char

def Piece.chars (p : Piece) : List Char := p.gap ++ p.lexeme

def Piece.token (p : Piece) (position : Position) : Token :=
  ⟨p.kind, String.ofList p.lexeme, position.after p.gap⟩

def written (ps : List Piece) : List Char := ps.flatMap Piece.chars

/-- The tokens of pieces that are written from a place on. -/
def tokensFrom (position : Position) : List Piece → List Token
  | [] => []
  | p :: ps => p.token position :: tokensFrom (position.after p.chars) ps

/-- The pieces are what is read off a text that goes on with the rest. -/
def Lexes : List Piece → List Char → Prop
  | [], _ => True
  | p :: ps, r => Blank p.gap ∧ Scans p.kind p.lexeme (written ps ++ r) ∧ Lexes ps r

theorem written_cons (p : Piece) (ps : List Piece) : written (p :: ps) = p.gap ++ (p.lexeme ++ written ps) :=
  List.append_assoc ..

theorem map_kind_tokensFrom (position : Position) (ps : List Piece) :
    (tokensFrom position ps).map (·.kind) = ps.map (·.kind) := by
  induction ps generalizing position with
  | nil => rfl
  | cons p ps ih => exact congrArg (p.kind :: ·) (ih _)

theorem map_lexeme_tokensFrom (position : Position) (ps : List Piece) :
    (tokensFrom position ps).map (·.lexeme) = ps.map fun p => String.ofList p.lexeme := by
  induction ps generalizing position with
  | nil => rfl
  | cons p ps ih => exact congrArg (String.ofList p.lexeme :: ·) (ih _)

theorem length_tokensFrom (position : Position) (ps : List Piece) : (tokensFrom position ps).length = ps.length := by
  simpa using congrArg List.length (map_kind_tokensFrom position ps)

theorem exists_piece_of_mem {position : Position} {ps : List Piece} {t : Token} (h : t ∈ tokensFrom position ps) :
    ∃ p ∈ ps, t.kind = p.kind ∧ t.lexeme = String.ofList p.lexeme := by
  induction ps generalizing position with
  | nil => cases h
  | cons p ps ih =>
    rcases List.mem_cons.mp h with rfl | h
    · exact ⟨p, List.mem_cons_self, rfl, rfl⟩
    · obtain ⟨p', hp', ht⟩ := ih h
      exact ⟨p', List.mem_cons_of_mem _ hp', ht⟩

/-- Each lexeme stands on its own. -/
theorem Lexes.mem {ps : List Piece} {r : List Char} (h : Lexes ps r) {p : Piece} (hp : p ∈ ps) :
    Blank p.gap ∧ Scans p.kind p.lexeme [] := by
  induction ps with
  | nil => cases hp
  | cons p' ps ih =>
    obtain ⟨hg, hs, hl⟩ := h
    rcases List.mem_cons.mp hp with rfl | hp
    · exact ⟨hg, hs.of_milder (.of_nil _)⟩
    · exact ih hl hp

/-! ### Reading -/

/-- A feed with one more reading in front. -/
def Feed.cons (r : Reading) (f : Feed) : Feed := { f with upcoming := r :: f.upcoming }

theorem read_of_nil {cs : List Char} (position : Position) (h : cs.dropWhile Text.isBlank = []) :
    Feed.read position cs = ⟨[], .atEnd (position.after (cs.takeWhile Text.isBlank))⟩ := by
  rw [Feed.read]
  split
  · rfl
  · next h' => rw [h] at h'; cases h'

/-- Where the blanks end, a lexeme is scanned, unless a fault takes nothing. -/
theorem read_of_cons {cs r : List Char} {c : Char} (position : Position) (h : cs.dropWhile Text.isBlank = c :: r) :
    let here := position.after (cs.takeWhile Text.isBlank)
    Feed.read position cs = if (scan c r).taken.isEmpty then
        match (scan c r).outcome with
        | .ok _ => ⟨[], .atEnd here⟩
        | .error fault => ⟨[], .stuck (.malformed fault here)⟩
      else (Feed.read (here.after (scan c r).taken) (scan c r).rest).cons ((scan c r).reading here) := by
  intro here
  rw [Feed.read]
  split
  · next h' => rw [h] at h'; cases h'
  · next c' r' h' =>
    rw [h] at h'
    obtain ⟨rfl, rfl⟩ := List.cons.inj h'
    exact dite_eq_ite

/-- Blanks in front are passed over. -/
theorem read_skip {gap : List Char} (position : Position) (hg : Blank gap) (cs : List Char) :
    Feed.read position (gap ++ cs) = Feed.read (position.after gap) cs := by
  have htake : (gap ++ cs).takeWhile Text.isBlank = gap ++ cs.takeWhile Text.isBlank := List.takeWhile_append_of_pos hg
  have hdrop : (gap ++ cs).dropWhile Text.isBlank = cs.dropWhile Text.isBlank := List.dropWhile_append_of_pos hg
  cases h : cs.dropWhile Text.isBlank with
  | nil => rw [read_of_nil _ h, read_of_nil _ (hdrop.trans h), htake, Position.after_append]
  | cons c r => rw [read_of_cons _ h, read_of_cons _ (hdrop.trans h), htake, Position.after_append]

theorem read_blank {gap : List Char} (position : Position) (hg : Blank gap) :
    Feed.read position gap = ⟨[], .atEnd (position.after gap)⟩ := by
  have h := read_skip position hg []
  rw [List.append_nil] at h
  rw [h, read_of_nil _ rfl]
  rfl

theorem read_piece {p : Piece} {r : List Char} (position : Position) (hg : Blank p.gap) (h : Scans p.kind p.lexeme r) :
    Feed.read position (p.gap ++ (p.lexeme ++ r)) =
      (Feed.read (position.after p.chars) r).cons (.ok (p.token position)) := by
  obtain ⟨c, cs, hw, hc, hs⟩ := h
  have hdrop : (p.lexeme ++ r).dropWhile Text.isBlank = c :: (cs ++ r) := by
    rw [hw, List.cons_append, List.dropWhile_cons_of_neg (by simp [hc])]
  have htake : (p.lexeme ++ r).takeWhile Text.isBlank = [] := by
    rw [hw, List.cons_append, List.takeWhile_cons_of_neg (by simp [hc])]
  rw [read_skip position hg, read_of_cons _ hdrop, htake, hs, hw]
  simp only [List.isEmpty_cons, Bool.false_eq_true, if_false]
  rw [Piece.chars, Position.after_append, hw, Piece.token, hw]
  rfl

theorem read_pieces {ps : List Piece} {r : List Char} (position : Position) (h : Lexes ps r) :
    (Feed.read position (written ps ++ r)).upcoming =
        (tokensFrom position ps).map .ok ++ (Feed.read (position.after (written ps)) r).upcoming ∧
      (Feed.read position (written ps ++ r)).ending = (Feed.read (position.after (written ps)) r).ending := by
  induction ps generalizing position with
  | nil => exact ⟨rfl, rfl⟩
  | cons p ps ih =>
    obtain ⟨hg, hs, hl⟩ := h
    obtain ⟨hu, he⟩ := ih (position.after p.chars) hl
    rw [written_cons, List.append_assoc, List.append_assoc, read_piece position hg hs]
    have hafter : position.after (p.gap ++ (p.lexeme ++ written ps)) =
        (position.after p.chars).after (written ps) := by
      rw [← Position.after_append, Piece.chars, List.append_assoc]
    rw [hafter]
    exact ⟨congrArg (Except.ok (p.token position) :: ·) hu, he⟩

/-- A token that is read is that of a piece in front. -/
theorem piece_of_reading {position : Position} {cs : List Char} {t : Token} {rest : List Reading}
    (h : (Feed.read position cs).upcoming = .ok t :: rest) :
    ∃ (p : Piece) (r : List Char), cs = p.gap ++ (p.lexeme ++ r) ∧ Blank p.gap ∧ Scans p.kind p.lexeme r ∧ p.token position = t := by
  have hsplit := List.takeWhile_append_dropWhile (p := Text.isBlank) (l := cs)
  cases hdrop : cs.dropWhile Text.isBlank with
  | nil => rw [read_of_nil _ hdrop] at h; cases h
  | cons c r =>
    rw [read_of_cons _ hdrop] at h
    split at h
    · split at h <;> cases h
    · obtain ⟨hreading, -⟩ := List.cons.inj h
      have hc : Text.isBlank c = false := Text.isBlank_head_trimStart c cs r hdrop
      unfold Scan.reading at hreading
      cases ho : (scan c r).outcome with
      | error fault => rw [ho] at hreading; cases hreading
      | ok kind =>
        rw [ho] at hreading
        refine ⟨⟨cs.takeWhile Text.isBlank, kind, (scan c r).taken⟩, (scan c r).rest, ?_, ?_, .of_scan hc ho, ?_⟩
        · rw [scan_taken, ← hdrop, hsplit]
        · exact fun d hd => List.mem_takeWhile_imp hd
        · exact Except.ok.inj hreading

/-- A run of tokens that are read is that of pieces in front, and what is read behind
    them is read off the rest. -/
theorem pieces_of_readings {us : List Token} {position : Position} {cs : List Char} {rest : List Reading}
    (h : (Feed.read position cs).upcoming = us.map .ok ++ rest) :
    ∃ ps r, cs = written ps ++ r ∧ Lexes ps r ∧ tokensFrom position ps = us ∧
      (Feed.read (position.after (written ps)) r).upcoming = rest := by
  induction us generalizing position cs with
  | nil => exact ⟨[], cs, rfl, trivial, rfl, h⟩
  | cons t us ih =>
    obtain ⟨p, r, rfl, hg, hs, ht⟩ := piece_of_reading h
    rw [read_piece position hg hs] at h
    obtain ⟨ps, r, rfl, hl, hus, hrest⟩ := ih (List.cons.inj h).2
    refine ⟨p :: ps, r, ?_, ⟨hg, hs, hl⟩, ?_, ?_⟩
    · rw [written_cons, List.append_assoc, List.append_assoc]
    · rw [tokensFrom, ht, hus]
    · rw [← hrest, ← Position.after_append]
      rfl

/-- Readings behind a run of tokens are those behind pieces in front. -/
theorem exists_pieces {us : List Token} {position : Position} {cs : List Char} {x : Reading} {rest : List Reading}
    (h : (Feed.read position cs).readings = us.map .ok ++ x :: rest) :
    ∃ ps r, cs = written ps ++ r ∧ Lexes ps r ∧ tokensFrom position ps = us ∧
      (Feed.read (position.after (written ps)) r).readings = x :: rest := by
  obtain ⟨rest', hrest'⟩ : ∃ rest', (Feed.read position cs).upcoming = us.map .ok ++ rest' := by
    rcases List.append_eq_append_iff.mp h with ⟨as, has, hx⟩ | ⟨rest', hupcoming, -⟩
    · cases as with
      | nil => exact ⟨[], by rw [has, List.append_nil, List.append_nil]⟩
      | cons a as => simp at hx
    · exact ⟨rest', hupcoming⟩
  obtain ⟨ps, r, rfl, hl, rfl, -⟩ := pieces_of_readings hrest'
  obtain ⟨hu, he⟩ := read_pieces position hl
  rw [Feed.readings, hu, he, List.append_assoc] at h
  exact ⟨ps, r, rfl, hl, rfl, List.append_cancel_left h⟩

theorem written_append (ps qs : List Piece) : written (ps ++ qs) = written ps ++ written qs := List.flatMap_append

/-- Pieces in front of others are read with them. -/
theorem Lexes.append {ps qs : List Piece} {r : List Char} (hps : Lexes ps (written qs ++ r)) (hqs : Lexes qs r) :
    Lexes (ps ++ qs) r := by
  induction ps with
  | nil => exact hqs
  | cons p ps ih =>
    obtain ⟨hg, hs, hl⟩ := hps
    refine ⟨hg, ?_, ih hl⟩
    rwa [List.append_eq, written_append, List.append_assoc]

/-- A gap ends any lexeme. -/
theorem Milder.of_gap {gap : List Char} (hg : Blank gap) (hne : gap ≠ []) (r' r : List Char) :
    Milder (gap ++ r') r := by
  obtain ⟨c, gap, rfl⟩ := List.exists_cons_of_ne_nil hne
  exact .of_blank (hg c List.mem_cons_self) _ _

theorem Lexes.of_milder {ps : List Piece} {r' r : List Char} (hl : Lexes ps r) (hm : Milder r' r) : Lexes ps r' := by
  induction ps with
  | nil => trivial
  | cons p ps ih =>
    obtain ⟨hg, hs, hl⟩ := hl
    exact ⟨hg, hs.of_milder (hm.append rfl), ih hl⟩

/-! ### Whole texts -/

theorem blank_of_atEnd {position p : Position} {cs : List Char} (h : Feed.read position cs = ⟨[], .atEnd p⟩) :
    Blank cs := by
  cases hdrop : cs.dropWhile Text.isBlank with
  | nil => exact List.dropWhile_eq_nil_iff.mp hdrop
  | cons c r =>
    rw [read_of_cons _ hdrop] at h
    split at h
    · next hempty =>
      cases ho : (scan c r).outcome with
      | ok kind => exact absurd (List.isEmpty_iff.mp hempty) (scan_moves c r kind ho)
      | error fault => rw [ho] at h; cases h
    · cases h

theorem readings_of_lexes {ps : List Piece} {last : List Char} (hl : Lexes ps last) (hb : Blank last)
    (position : Position) : (Feed.read position (written ps ++ last)).readings =
      (tokensFrom position ps ++ [(⟨.endOfInput, "", position.after (written ps ++ last)⟩ : Token)]).map .ok := by
  obtain ⟨hu, he⟩ := read_pieces position hl
  rw [read_blank _ hb] at hu he
  rw [Feed.readings, hu, he, List.append_nil, List.map_append, Position.after_append]
  rfl

/-- A text has tokens exactly when it is pieces and a blank end. -/
theorem tokenize_eq_ok {text : String} {ts : List Token} : tokenize text = .ok ts ↔
    ∃ ps last, text.toList = written ps ++ last ∧ Lexes ps last ∧ Blank last ∧
      ts = tokensFrom .start ps ++ [⟨.endOfInput, "", Position.start.after text.toList⟩] := by
  show collect (Feed.ofText text).readings = .ok ts ↔ _
  rw [Parser.collect_eq_ok]
  constructor
  · intro h
    obtain ⟨us, es, rfl, hus, hes⟩ := List.map_eq_append_iff.mp h.symm
    rw [← List.append_nil (us.map _)] at hus
    obtain ⟨ps, last, htext, hl, hps, hrest⟩ := pieces_of_readings hus.symm
    obtain ⟨-, he⟩ := read_pieces .start hl
    rw [← htext] at he
    have hlast : Blank last := by
      cases hf : Feed.read (Position.start.after (written ps)) last with
      | mk upcoming ending =>
        rw [hf] at hrest he
        obtain rfl : upcoming = [] := hrest
        cases ending with
        | atEnd p => exact blank_of_atEnd hf
        | stuck error =>
          have hstuck : es.map Except.ok = [.error error] := by rw [hes, Feed.ofText, he]; rfl
          cases es with
          | nil => cases hstuck
          | cons e es => cases (List.cons.inj hstuck).1
    have hreadings := readings_of_lexes hl hlast .start
    rw [← htext] at hreadings
    refine ⟨ps, last, htext, hl, hlast, ?_⟩
    exact (List.map_inj_right fun _ _ => Except.ok.inj).mp (h.symm.trans hreadings)
  · rintro ⟨ps, last, htext, hl, hlast, hts⟩
    rw [Feed.ofText, hts, htext]
    exact readings_of_lexes hl hlast .start

/-! ## (2) Places -/

/-- Where a reading starts, in characters. -/
def Reading.offset : Reading → Nat
  | .ok t => t.position.offset
  | .error e => (e.position?.map Position.offset).getD 0

theorem Scan.offset_reading (s : Scan) (position : Position) :
    Reading.offset (s.reading position) = position.offset := by
  unfold Scan.reading
  cases s.outcome <;> rfl

/-- What is read next starts behind the blanks. -/
theorem next_offset (position : Position) (cs : List Char) :
    Reading.offset (Feed.read position cs).next.1 = position.offset + (cs.takeWhile Text.isBlank).length := by
  rw [← Position.offset_after]
  cases hdrop : cs.dropWhile Text.isBlank with
  | nil => rw [read_of_nil _ hdrop]; rfl
  | cons c r =>
    rw [read_of_cons _ hdrop]
    split
    · cases (scan c r).outcome <;> rfl
    · exact Scan.offset_reading _ _

/-- Every reading starts behind those before it. -/
theorem read_sorted (position : Position) (cs : List Char) :
    (∀ r ∈ (Feed.read position cs).readings, position.offset ≤ Reading.offset r) ∧
      (Feed.read position cs).readings.Pairwise fun r r' => Reading.offset r < Reading.offset r' := by
  induction hn : cs.length using Nat.strong_induction_on generalizing position cs with
  | _ n ih =>
    have hhere := Position.offset_after position (cs.takeWhile Text.isBlank)
    generalize hp : position.after (cs.takeWhile Text.isBlank) = here at hhere
    -- where nothing more is read, the ending is all there is
    have hend : ∀ e : Ending, Reading.offset e.reading = here.offset →
        (∀ r ∈ (⟨[], e⟩ : Feed).readings, position.offset ≤ Reading.offset r) ∧
          (⟨[], e⟩ : Feed).readings.Pairwise fun r r' => Reading.offset r < Reading.offset r' := by
      intro e he
      simp only [Feed.readings, List.nil_append, List.mem_singleton, forall_eq, List.pairwise_singleton, and_true]
      omega
    cases hdrop : cs.dropWhile Text.isBlank with
    | nil =>
      rw [read_of_nil _ hdrop, hp]
      exact hend _ rfl
    | cons c r =>
      rw [read_of_cons _ hdrop, hp]
      split
      · cases (scan c r).outcome with
        | ok kind => exact hend _ rfl
        | error fault => exact hend _ rfl
      · next hempty =>
        have hdropped := (List.dropWhile_suffix (l := cs) Text.isBlank).length_le
        have hshorter := scan_rest_shorter (Bool.eq_false_iff.mpr hempty)
        rw [hdrop] at hdropped
        obtain ⟨hge, hsorted⟩ := ih _ (by omega) (here.after (scan c r).taken) (scan c r).rest rfl
        have htaken : 0 < (scan c r).taken.length := List.length_pos_iff.mpr fun h => hempty (by rw [h]; rfl)
        rw [Position.offset_after] at hge
        have hreading := Scan.offset_reading (scan c r) here
        constructor
        · intro x hx
          rcases List.mem_cons.mp hx with rfl | hx
          · omega
          · have := hge x hx
            omega
        · refine List.pairwise_cons.mpr ⟨fun x hx => ?_, hsorted⟩
          have := hge x hx
          omega

/-- What stands before a reading is the tokens before it and blanks. -/
theorem take_offset {text : String} {us : List Token} {x : Reading} {rest : List Reading}
    (h : (Feed.ofText text).readings = us.map .ok ++ x :: rest) :
    ∃ ps r gap, Lexes ps r ∧ Blank gap ∧ tokensFrom .start ps = us ∧
      text.toList.take (Reading.offset x) = written ps ++ gap := by
  obtain ⟨ps, r, htext, hl, hus, hr⟩ := exists_pieces h
  have hgap : Blank (r.takeWhile Text.isBlank) := fun c hc => List.mem_takeWhile_imp hc
  refine ⟨ps, r, r.takeWhile Text.isBlank, hl, hgap, hus, ?_⟩
  have hoffset : Reading.offset x = (written ps ++ r.takeWhile Text.isBlank).length := by
    obtain ⟨rest', hrest'⟩ := Parser.readings_head (Feed.read (Position.start.after (written ps)) r)
    obtain ⟨rfl, -⟩ := List.cons.inj (hrest'.symm.trans hr)
    rw [next_offset, Position.offset_after, List.length_append]
    show 0 + _ + _ = _
    rw [Nat.zero_add]
  have hsplit : text.toList = (written ps ++ r.takeWhile Text.isBlank) ++ r.dropWhile Text.isBlank := by
    rw [htext, List.append_assoc, List.takeWhile_append_dropWhile]
  rw [hsplit]
  exact List.take_left' hoffset.symm

/-- No two readings of a text start at the same place. -/
theorem reading_unique {text : String} {us us' : List Token} {x x' : Reading} {rest rest' : List Reading}
    (h : (Feed.ofText text).readings = us.map .ok ++ x :: rest)
    (h' : (Feed.ofText text).readings = us'.map .ok ++ x' :: rest') (hx : Reading.offset x' = Reading.offset x) :
    us' = us ∧ x' = x := by
  have hsorted := (read_sorted .start text.toList).2
  rw [show (Feed.read .start text.toList).readings = _ from h, List.pairwise_append, List.pairwise_cons] at hsorted
  obtain ⟨-, ⟨hbehind, -⟩, hbefore⟩ := hsorted
  have hus : x' ∉ us.map .ok := fun hm => (hbefore _ hm _ List.mem_cons_self).ne hx
  have hrest : x' ∉ rest := fun hm => (hbehind _ hm).ne' hx
  obtain ⟨hus', rfl, -⟩ := (List.append_cons_inj_of_notMem hus hrest).mp (h.symm.trans h')
  exact ⟨((List.map_inj_right fun _ _ => Except.ok.inj).mp hus').symm, rfl⟩

/-! ## (3) Other gaps -/

/-- The same lexeme behind other blanks, a keyword in any ASCII case. -/
structure Piece.Rewrites (p' p : Piece) : Prop where
  kind : p'.kind = p.kind
  gap : Blank p'.gap
  lexeme : p'.lexeme = p.lexeme ∨ (∃ k, p.kind = .keyword k) ∧ Recased p'.lexeme p.lexeme

/-- There is a gap wherever there was one. -/
def Piece.KeepsGap (p' p : Piece) : Prop := p'.gap = [] → p.gap = []

theorem Piece.Rewrites.scans {p' p : Piece} (h : p'.Rewrites p) {r' r : List Char} (hm : Milder r' r)
    (hs : Scans p.kind p.lexeme r) : Scans p'.kind p'.lexeme r' := by
  rw [h.kind]
  rcases h.lexeme with hw | ⟨⟨k, hk⟩, hw⟩
  · rw [hw]
    exact hs.of_milder hm
  · rw [hk] at hs ⊢
    exact hs.recased hw hm

theorem map_kind_of_rewrites {ps' ps : List Piece} (h : List.Forall₂ Piece.Rewrites ps' ps) :
    ps'.map (·.kind) = ps.map (·.kind) := by
  induction h with
  | nil => rfl
  | cons hp _ ih => rw [List.map_cons, List.map_cons, hp.kind, ih]

theorem milder_written {ps' ps : List Piece} (h : List.Forall₂ Piece.Rewrites ps' ps)
    (hgaps : List.Forall₂ Piece.KeepsGap ps' ps) {r' r : List Char} (hm : Milder r' r) :
    Milder (written ps' ++ r') (written ps ++ r) := by
  induction h with
  | nil => exact hm
  | @cons p' p ps' ps hp _ ih =>
    obtain ⟨hgap, hgaps⟩ := List.forall₂_cons.mp hgaps
    simp only [written_cons, List.append_assoc]
    cases hg : p'.gap with
    | cons c gap => exact .of_blank (hp.gap c (by simp [hg])) _ _
    | nil =>
      have hw : Recased p'.lexeme p.lexeme := hp.lexeme.elim (congrArg _) And.right
      rw [hgap hg]
      exact (ih hgaps).append hw

/-- Lexemes can be read with other gaps, as long as each that follows another one is
    kept apart from it where it was before. -/
theorem Lexes.rewritten {ps' ps : List Piece} {r' r : List Char} (hl : Lexes ps r)
    (h : List.Forall₂ Piece.Rewrites ps' ps) (hgaps : List.Forall₂ Piece.KeepsGap ps'.tail ps.tail)
    (hm : Milder r' r) : Lexes ps' r' := by
  induction h with
  | nil => trivial
  | @cons p' p ps' ps hp hps ih =>
    obtain ⟨-, hs, hl⟩ := hl
    refine ⟨hp.gap, hp.scans (milder_written hps hgaps hm) hs, ih hl ?_⟩
    cases hgaps with
    | nil => exact .nil
    | cons _ hgaps => exact hgaps

end Token

end EntityQuery
