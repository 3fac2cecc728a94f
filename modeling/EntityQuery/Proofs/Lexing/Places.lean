/-
  EntityQuery.Proofs.Lexing.Places — every reading is where its place says
  (`readings_placed`).

  (1) Places. The place behind some characters counts them, their line feeds and what
  follows the last one (`Position.start_after`).

  (2) Readings. Whatever is read off a text, token or fault, starts at a place of that
  text, and a token's lexeme stands there (`read_standing`). What is read behind it is read
  off what it leaves (`readings_cases`). Reading on and on gives the readings of the text
  and then its ending (`take_eq`).

  (3) Tokens. Between the lexemes of a text with tokens stand its blanks and nothing else
  (`gapsBetween_tokensFrom`).
-/

import EntityQuery.Proofs.Layout
import Mathlib.Data.List.DropRight

namespace EntityQuery

open Token (Piece Feed Reading tokenize tokensFrom written)

/-! ## (1) Places -/

/-- A place of a text: its offset lies in the text, and line and column say what stands
    before it. -/
structure Position.Marks (p : Position) (cs : List Char) : Prop where
  offset : p.offset ≤ cs.length
  line : p.line = 1 + (cs.take p.offset).count '\n'
  column : p.column = 1 + ((cs.take p.offset).rtakeWhile (· != '\n')).length

theorem Position.start_after (cs : List Char) :
    start.after cs = ⟨cs.length, 1 + cs.count '\n', 1 + (cs.rtakeWhile (· != '\n')).length⟩ := by
  induction cs using List.reverseRecOn with
  | nil => rfl
  | append_singleton cs c ih =>
    have hlast : start.after (cs ++ [c]) = (start.after cs).next c := by
      rw [after_append]
      rfl
    rw [hlast, ih, next]
    by_cases hc : c = '\n'
    · rw [if_pos hc, hc, List.rtakeWhile_concat_neg _ _ _ (by decide)]
      simp [Nat.add_assoc]
    · rw [if_neg hc, List.rtakeWhile_concat_pos _ _ _ (by simpa using hc)]
      simp [hc, Nat.add_assoc]

theorem Position.marks_after (before after : List Char) : (start.after before).Marks (before ++ after) := by
  have htake : (before ++ after).take (start.after before).offset = before := by
    rw [start_after]
    exact List.take_left
  constructor
  · rw [start_after]
    simp
  · rw [htake, start_after]
  · rw [htake, start_after]

/-! ## (2) Readings -/

namespace Token

/-- Where a reading starts; an error that is none of the text has no place in it. -/
def Reading.place? : Reading → Option Position
  | .ok t => some t.position
  | .error e => e.position?

/-- The text goes on with the lexeme where the reading starts. -/
def Reading.StandsIn (r : Reading) (cs : List Char) : Prop :=
  ∃ before after, cs = before ++ after ∧ r.place? = some (Position.start.after before) ∧
    ∀ t, r = .ok t → t.lexeme.toList <+: after

theorem Scan.reading_place? (s : Scan) (position : Position) : (s.reading position).place? = some position := by
  unfold Scan.reading
  cases s.outcome <;> rfl

theorem Scan.lexeme_of_reading {s : Scan} {position : Position} {t : Token} (h : s.reading position = .ok t) :
    t.lexeme.toList = s.taken := by
  unfold Scan.reading at h
  cases ho : s.outcome with
  | ok kind =>
    rw [ho] at h
    rw [← Except.ok.inj h]
    exact String.toList_ofList
  | error fault =>
    rw [ho] at h
    cases h

/-- What is read behind some characters stands in the whole text. -/
theorem read_standing (before cs : List Char) :
    ∀ r ∈ (Feed.read (Position.start.after before) cs).readings, r.StandsIn (before ++ cs) := by
  generalize hp : Position.start.after before = position
  -- behind the blanks is a place of the text
  have hplace : ∀ {before cs : List Char} {r : Reading} {rest : List Char} (hrest : cs.dropWhile Text.isBlank = rest),
      r.place? = some ((Position.start.after before).after (cs.takeWhile Text.isBlank)) →
      (∀ t, r = .ok t → t.lexeme.toList <+: rest) → r.StandsIn (before ++ cs) := by
    rintro before cs r _ rfl hr hlexeme
    refine ⟨before ++ cs.takeWhile Text.isBlank, _, ?_, ?_, hlexeme⟩
    · rw [List.append_assoc, List.takeWhile_append_dropWhile]
    · rw [hr, Position.after_append]
  fun_induction Feed.read position cs generalizing before with subst hp
  | case1 position cs here hcs =>
    intro r hr
    obtain rfl := List.mem_singleton.mp hr
    refine hplace hcs rfl fun t ht => ?_
    rw [← Except.ok.inj ht]
    exact List.nil_prefix
  | case2 position cs here c r hcs hs kind ho => exact absurd (List.isEmpty_iff.mp hs) (scan_moves c r kind ho)
  | case3 position cs here c r hcs hs fault ho =>
    intro x hx
    obtain rfl := List.mem_singleton.mp hx
    refine hplace hcs rfl fun t ht => ?_
    cases ht
  | case4 position cs here c r hcs hs hlt f ih =>
    intro x hx
    rcases List.mem_cons.mp hx with rfl | hx
    · refine hplace hcs (Scan.reading_place? _ _) fun t ht => ?_
      rw [Scan.lexeme_of_reading ht]
      exact ⟨_, scan_taken c r⟩
    · have hwhole : before ++ cs =
          before ++ (cs.takeWhile Text.isBlank ++ (scan c r).taken) ++ (scan c r).rest := by
        rw [List.append_assoc, List.append_assoc, scan_taken, ← hcs, List.takeWhile_append_dropWhile]
      rw [hwhole]
      refine ih _ ?_ x hx
      rw [Position.after_append, Position.after_append]

/-- What is read first is the end of the text, or what is scanned where its blanks end. From
    there the text is read on, unless nothing was taken. -/
theorem readings_cases {position : Position} {cs : List Char} {r : Reading} {later : List Reading}
    (h : (Feed.read position cs).readings = r :: later) :
    let here := position.after (cs.takeWhile Text.isBlank)
    (cs.dropWhile Text.isBlank = [] ∧ r = .ok ⟨.endOfInput, "", here⟩ ∧ later = []) ∨
    ∃ c rest, cs.dropWhile Text.isBlank = c :: rest ∧ r = (scan c rest).reading here ∧
      later = if (scan c rest).taken.isEmpty then []
        else (Feed.read (here.after (scan c rest).taken) (scan c rest).rest).readings := by
  intro here
  cases hdrop : cs.dropWhile Text.isBlank with
  | nil =>
    rw [read_of_nil _ hdrop] at h
    obtain ⟨rfl, rfl⟩ := List.cons.inj h
    exact .inl ⟨rfl, rfl, rfl⟩
  | cons c rest =>
    refine .inr ⟨c, rest, rfl, ?_⟩
    rw [read_of_cons _ hdrop] at h
    split at h
    · next hempty =>
      rw [if_pos hempty]
      unfold Scan.reading
      cases ho : (scan c rest).outcome with
      | ok kind => exact absurd (List.isEmpty_iff.mp hempty) (scan_moves c rest kind ho)
      | error fault =>
        rw [ho] at h
        obtain ⟨rfl, rfl⟩ := List.cons.inj h
        exact ⟨rfl, rfl⟩
    · next hempty =>
      rw [if_neg hempty]
      obtain ⟨rfl, rfl⟩ := List.cons.inj h
      exact ⟨rfl, rfl⟩

/-- What is read from some reading on is read off the rest of the text. -/
theorem exists_rest (before : List Char) {cs : List Char} {earlier later : List Reading} {r : Reading}
    (h : (Feed.read (Position.start.after before) cs).readings = earlier ++ r :: later) :
    ∃ before' cs', before ++ cs = before' ++ cs' ∧
      (Feed.read (Position.start.after before') cs').readings = r :: later := by
  induction earlier generalizing before cs with
  | nil => exact ⟨before, cs, rfl, h⟩
  | cons x earlier ih =>
    obtain ⟨-, -, hnone⟩ | ⟨c, rest, hdrop, -, hlater⟩ := readings_cases h
    · exact absurd hnone (by simp)
    · split at hlater
      · exact absurd hlater (by simp)
      · rw [← Position.after_append, ← Position.after_append] at hlater
        obtain ⟨before', cs', hwhole, hread⟩ := ih _ hlater.symm
        refine ⟨before', cs', ?_, hread⟩
        rw [← hwhole, List.append_assoc, List.append_assoc, scan_taken, ← hdrop, List.takeWhile_append_dropWhile]

/-! ### Reading on -/

/-- So many readings are those of the text, and then its ending as often as is left. -/
theorem take_eq (n : Nat) (f : Feed) :
    Feed.take n f = f.upcoming.take n ++ List.replicate (n - f.upcoming.length) f.ending.reading := by
  induction n generalizing f with
  | zero => simp [Feed.take]
  | succ n ih =>
    obtain ⟨upcoming, ending⟩ := f
    cases upcoming with
    | nil => simp [Feed.take, Feed.next, ih, List.replicate_succ]
    | cons r rest => simp [Feed.take, Feed.next, ih]

theorem take_length_readings (f : Feed) : Feed.take f.readings.length f = f.readings := by
  simp [take_eq, Feed.readings]

theorem mem_readings_of_mem_take {n : Nat} {f : Feed} {r : Reading} (h : r ∈ Feed.take n f) : r ∈ f.readings := by
  rw [take_eq] at h
  rcases List.mem_append.mp h with h | h
  · exact List.mem_append_left _ (List.mem_of_mem_take h)
  · rw [List.eq_of_mem_replicate h]
    exact List.mem_append_right _ List.mem_cons_self

/-- No reading starts before one that was read earlier. -/
theorem take_sorted (n : Nat) (position : Position) (cs : List Char) :
    (Feed.take n (Feed.read position cs)).Pairwise fun r r' => Reading.offset r ≤ Reading.offset r' := by
  obtain ⟨hupcoming, -, hending⟩ := List.pairwise_append.mp (read_sorted position cs).2
  rw [take_eq]
  refine List.pairwise_append.mpr ⟨?_, ?_, fun r hr r' hr' => ?_⟩
  · exact (hupcoming.imp Nat.le_of_lt).sublist (List.take_sublist _ _)
  · exact List.pairwise_replicate.mpr (.inr (Nat.le_refl _))
  · rw [List.eq_of_mem_replicate hr']
    exact Nat.le_of_lt (hending r (List.mem_of_mem_take hr) _ List.mem_cons_self)

/-! ## (3) Tokens -/

/-- What stands before each lexeme, behind the one before it. -/
def gapsBetween (cs : List Char) : Nat → List Token → List (List Char)
  | _, [] => []
  | stop, t :: ts =>
    (cs.drop stop).take (t.position.offset - stop) :: gapsBetween cs (t.position.offset + t.lexeme.length) ts

theorem gapsBetween_tokensFrom (before : List Char) (ps : List Piece) (rest : List Char) :
    gapsBetween (before ++ (written ps ++ rest)) before.length (tokensFrom (Position.start.after before) ps) =
      ps.map (·.gap) := by
  induction ps generalizing before with
  | nil => rfl
  | cons p ps ih =>
    have hstart : (p.token (Position.start.after before)).position.offset = before.length + p.gap.length := by
      rw [Piece.token, Position.offset_after, Position.offset_after, Position.start, Nat.zero_add]
    have hstop : before.length + p.gap.length + (String.ofList p.lexeme).length = (before ++ p.chars).length := by
      simp [Piece.chars, Nat.add_assoc]
    have hrest : before ++ (written (p :: ps) ++ rest) = (before ++ p.chars) ++ (written ps ++ rest) := by
      simp [written]
    rw [tokensFrom, gapsBetween, hstart, List.map_cons]
    congr 1
    · rw [Nat.add_sub_cancel_left, List.drop_left, written_cons, List.append_assoc]
      exact List.take_left
    · rw [Piece.token, hstop, hrest, ← Position.after_append]
      exact ih _

/-- The end of a text as a piece of it. -/
def endPiece (last : List Char) : Piece := ⟨last, .endOfInput, []⟩

theorem tokensFrom_append (position : Position) (ps qs : List Piece) :
    tokensFrom position (ps ++ qs) = tokensFrom position ps ++ tokensFrom (position.after (written ps)) qs := by
  induction ps generalizing position with
  | nil => rfl
  | cons p ps ih =>
    rw [List.cons_append, tokensFrom, ih, tokensFrom, List.cons_append]
    congr 3
    rw [← Position.after_append]
    rfl

/-- Tokens of a text are those of its pieces, the end of the text as the last one. -/
theorem exists_pieces_of_tokenize {text : String} {ts : List Token} (h : tokenize text = .ok ts) :
    ∃ ps last, text.toList = written (ps ++ [endPiece last]) ∧ (∀ p ∈ ps, Blank p.gap ∧ Scans p.kind p.lexeme []) ∧
      Blank last ∧ ts = tokensFrom .start (ps ++ [endPiece last]) := by
  obtain ⟨ps, last, htext, hl, hlast, rfl⟩ := tokenize_eq_ok.mp h
  refine ⟨ps, last, ?_, fun p hp => hl.mem hp, hlast, ?_⟩
  · rw [htext, written_append]
    simp [written, Piece.chars, endPiece]
  · rw [tokensFrom_append, htext, Position.after_append]
    rfl

/-- A lexeme is one of some characters, and not the end of a text. -/
theorem Scans.proper {kind : TokenKind} {w r : List Char} (h : Scans kind w r) : kind ≠ .endOfInput ∧ w ≠ [] := by
  obtain ⟨c, cs, rfl, -, hscan⟩ := h
  refine ⟨fun hkind => scan_notEnd c (cs ++ r) ?_, List.cons_ne_nil _ _⟩
  rw [hscan, hkind]

theorem length_le_written {ps : List Piece} (h : ∀ p ∈ ps, p.lexeme ≠ []) : ps.length ≤ (written ps).length := by
  induction ps with
  | nil => exact Nat.le_refl _
  | cons p ps ih =>
    obtain ⟨hp, hps⟩ := List.forall_mem_cons.mp h
    have hlexeme := List.length_pos_iff.mpr hp
    have hrest := ih hps
    rw [written_cons, List.length_append, List.length_append, List.length_cons]
    omega

end Token

/-- A reading that stands in a text is at a place of it, and the text has its lexeme there. -/
theorem Token.Reading.StandsIn.placed {r : Reading} {cs : List Char} (h : r.StandsIn cs) :
    ∃ p, r.place? = some p ∧ p.Marks cs ∧ ∀ t, r = .ok t →
      p.offset + t.lexeme.length ≤ cs.length ∧ (cs.drop p.offset).take t.lexeme.length = t.lexeme.toList := by
  obtain ⟨before, after, rfl, hplace, hlexeme⟩ := h
  refine ⟨_, hplace, Position.marks_after before after, fun t ht => ?_⟩
  have hprefix := hlexeme t ht
  rw [Position.start_after, List.drop_left, List.length_append, ← String.length_toList]
  exact ⟨Nat.add_le_add_left hprefix.length_le _, (List.prefix_iff_eq_take.mp hprefix).symm⟩

/-- However often a text is read on, behind faults and behind its end, every token and
    every fault is at a place of it, none is before an earlier one, and what the text has
    at a token's place is its lexeme. Where there is no fault, the tokens are what is read
    up to the first end of input, which is at the end of the text; the others have
    lexemes, and these make up the text with the blanks between them. -/
theorem readings_placed (text : String) (n : Nat) :
    let cs := text.toList
    let readings := Feed.take n (Feed.ofText text)
    (∀ r ∈ readings, ∃ p, r.place? = some p ∧ p.Marks cs ∧ ∀ t, r = .ok t →
      p.offset + t.lexeme.length ≤ cs.length ∧ (cs.drop p.offset).take t.lexeme.length = t.lexeme.toList) ∧
    (readings.Pairwise fun r r' => r.offset ≤ r'.offset) ∧
    ∀ ts, tokenize text = .ok ts →
      Feed.take ts.length (Feed.ofText text) = ts.map .ok ∧
      (∃ us e, ts = us ++ [e] ∧ e.kind = .endOfInput ∧ e.position.offset = cs.length ∧
        ∀ t ∈ us, t.kind ≠ .endOfInput ∧ t.lexeme ≠ "") ∧
      ts.length ≤ cs.length + 1 ∧ (∀ gap ∈ Token.gapsBetween cs 0 ts, Blank gap) ∧
      layOut (Token.gapsBetween cs 0 ts) (ts.map (·.lexeme)) [] = text := by
  intro cs readings
  refine ⟨fun r hr => ?_, Token.take_sorted n _ _, fun ts hts => ?_⟩
  · exact (Token.read_standing [] text.toList r (Token.mem_readings_of_mem_take hr)).placed
  · obtain ⟨ps, last, htext, hps, hlast, heq⟩ := Token.exists_pieces_of_tokenize hts
    have hreadings : (Feed.ofText text).readings = ts.map .ok := Parser.collect_eq_ok.mp hts
    have hgaps := Token.gapsBetween_tokensFrom [] (ps ++ [Token.endPiece last]) []
    rw [List.nil_append, List.append_nil, ← htext, show Position.start.after [] = .start from rfl, ← heq] at hgaps
    have hlength : cs.length = (written ps).length + last.length := by
      rw [show cs = _ from htext, Token.written_append, List.length_append]
      simp [written, Token.Piece.chars, Token.endPiece]
    refine ⟨?_, ⟨tokensFrom .start ps, _, heq.trans (Token.tokensFrom_append ..), rfl, ?_, fun t ht => ?_⟩, ?_, ?_, ?_⟩
    · have htake := Token.take_length_readings (Feed.ofText text)
      rwa [hreadings, List.length_map] at htake
    · rw [hlength, Token.Piece.token, Position.offset_after, Position.offset_after]
      simp [Position.start, Token.endPiece]
    · obtain ⟨p, hp, hkind, hlexeme⟩ := Token.exists_piece_of_mem ht
      obtain ⟨hend, hne⟩ := (hps p hp).2.proper
      rw [hkind, hlexeme]
      exact ⟨hend, fun hnil => hne (String.ofList_eq_empty_iff.mp hnil)⟩
    · have hle := Token.length_le_written fun p hp => (hps p hp).2.proper.2
      rw [heq, Token.length_tokensFrom, List.length_append, List.length_singleton]
      omega
    · rw [show Token.gapsBetween cs 0 ts = _ from hgaps]
      refine List.forall_mem_map.mpr fun p hp => ?_
      rcases List.mem_append.mp hp with hp | hp
      · exact (hps p hp).1
      · obtain rfl := List.mem_singleton.mp hp
        exact hlast
    · rw [show Token.gapsBetween cs 0 ts = _ from hgaps, heq, Token.map_lexeme_tokensFrom, layOut_pieces,
        List.append_nil, ← htext, String.ofList_toList]

/-- A closer of nothing, met again and again where it stands. -/
example : (Feed.take 3 (Feed.ofText "a\n ]")).map Reading.place? =
    [some ⟨0, 1, 1⟩, some ⟨3, 2, 2⟩, some ⟨3, 2, 2⟩] := by decide +kernel

end EntityQuery
