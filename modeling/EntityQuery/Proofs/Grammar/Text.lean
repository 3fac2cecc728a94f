/-
  EntityQuery.Proofs.Grammar.Text — texts and phrases: a text is a query exactly when
  its tokens up to the end of input are those of a query phrase, which is then the
  only one (`parse_eq_ok_iff`).

  A parser that reads a text holds what is left of its readings (`readings`). No
  reading but the last is the end of input, and a parser at the end of input stays
  there (`Lexed`), so the states a parser can reach by taking tokens are the places
  among the tokens (`takes_to_end_iff`).
-/

import EntityQuery.Proofs.Grammar.Parsing
import EntityQuery.Proofs.Outcomes
import Mathlib.Data.List.TakeWhile

namespace EntityQuery

open Token (Reading Scan Feed scan collect tokenize)

/-! ## No lexeme is the end of input -/

namespace Token

def Scan.NotEnd (s : Scan) : Prop := s.outcome ≠ .ok .endOfInput

theorem scanString_notEnd (c : Char) (cs : List Char) : (scanString c cs).NotEnd := by
  unfold scanString Scan.NotEnd
  split <;> simp

theorem scanJson_notEnd (cs : List Char) : (scanJson cs).NotEnd := by
  unfold scanJson Scan.NotEnd
  simp only
  split <;> simp

theorem scanNumber_notEnd (cs : List Char) : (scanNumber cs).NotEnd := by
  unfold Scan.NotEnd
  rcases scanNumber_cases cs with ⟨i, h⟩ | ⟨x, h⟩ | h <;> simp [h]

theorem scanMark_notEnd (short long : Mark) (c : Char) (cs : List Char) : (scanMark short long c cs).NotEnd := by
  unfold scanMark
  split <;> simp [Scan.NotEnd, Scan.mark]

theorem scanParam_notEnd (c : Char) (p : Char → Bool) (cs : List Char) : (scanParam c p cs).NotEnd := by
  simp only [Scan.NotEnd, scanParam]
  split <;> simp

theorem scanName_notEnd (cs : List Char) : (scanName cs).NotEnd := by
  simp only [Scan.NotEnd, scanName, nameKind]
  cases Keyword.lookup? (String.ofList (cs.takeWhile Text.isNamePart)) <;> simp

theorem scan_notEnd (c : Char) (cs : List Char) : (scan c cs).NotEnd := by
  have hmark : ∀ m, (Scan.mark m [c] cs).NotEnd := fun m => by simp [Scan.NotEnd, Scan.mark]
  have hfault : ∀ fault, Scan.NotEnd ⟨.error fault, [], c :: cs⟩ := fun _ => by simp [Scan.NotEnd]
  exact scan_cases (P := Scan.NotEnd) c cs (scanString_notEnd c cs) (scanJson_notEnd _)
    (fun _ => scanParam_notEnd _ _ _) (fun _ => scanParam_notEnd _ _ _) (fun _ => scanNumber_notEnd _) hmark (fun _ _ => scanMark_notEnd _ _ c cs)
    (fun _ => scanName_notEnd _) (hfault _) (hfault _)

theorem reading_ne_end {s : Scan} (h : s.NotEnd) {position : Position} {t : Token} (ht : s.reading position = .ok t) :
    t.kind ≠ .endOfInput := by
  unfold Scan.reading at ht
  cases ho : s.outcome with
  | ok kind =>
    rw [ho] at ht
    obtain rfl := Except.ok.inj ht
    exact fun hk => h (by rw [ho]; exact congrArg Except.ok hk)
  | error fault => rw [ho] at ht; cases ht

theorem read_ne_end (position : Position) (cs : List Char) :
    ∀ t, .ok t ∈ (Feed.read position cs).upcoming → t.kind ≠ .endOfInput := by
  fun_induction Feed.read position cs with
  | case1 => simp
  | case2 => simp
  | case3 => simp
  | case4 position cs here c r hcs hs hlt f ih =>
    intro t ht
    rcases List.mem_cons.mp ht with ht | ht
    · exact reading_ne_end (scan_notEnd c r) ht.symm
    · exact ih t ht

/-- All that is still to be read, the ending once. -/
def Feed.readings (f : Feed) : List Reading := f.upcoming ++ [f.ending.reading]

end Token

namespace Parser

variable {s s' : ParserState}

/-! ## The readings a parser has left -/

/-- A parser on the tokens of a text: only at the end of the text is the end of input
    in front, and then nothing else can be read any more. -/
structure Lexed (s : ParserState) : Prop where
  notEnd : ∀ t, .ok t ∈ s.feed.upcoming → t.kind ≠ .endOfInput
  atEnd : s.current.kind = .endOfInput → s.feed.upcoming = [] ∧ ∃ position, s.feed.ending = .atEnd position

/-- The token in front and what can be read behind it, up to the end. -/
def readings (s : ParserState) : List Reading :=
  .ok s.current :: if s.current.kind = .endOfInput then [] else s.feed.readings

theorem readings_of_notEnd (h : s.current.kind ≠ .endOfInput) : readings s = .ok s.current :: s.feed.readings := by
  simp [readings, h]

theorem readings_head (f : Feed) : ∃ rest, f.readings = f.next.1 :: rest := by
  obtain ⟨upcoming, ending⟩ := f
  cases upcoming with
  | nil => exact ⟨[], rfl⟩
  | cons r rest => exact ⟨rest ++ [ending.reading], rfl⟩

/-- The next reading is in front afterwards, and the others are left. -/
theorem next_lexed {f g : Feed} (hf : ∀ t, .ok t ∈ f.upcoming → t.kind ≠ .endOfInput) {t : Token}
    (h : f.next = (.ok t, g)) : Lexed ⟨t, g⟩ ∧ f.readings = readings ⟨t, g⟩ := by
  obtain ⟨upcoming, ending⟩ := f
  cases upcoming with
  | nil =>
    cases ending with
    | atEnd position =>
      obtain ⟨rfl, rfl⟩ : ⟨.endOfInput, "", position⟩ = t ∧ ⟨[], .atEnd position⟩ = g := by
        simpa [Feed.next, Token.Ending.reading] using h
      exact ⟨⟨fun _ hm => absurd hm List.not_mem_nil, fun _ => ⟨rfl, position, rfl⟩⟩, rfl⟩
    | stuck error => simp [Feed.next, Token.Ending.reading] at h
  | cons r rest =>
    obtain ⟨rfl, rfl⟩ : r = .ok t ∧ ⟨rest, ending⟩ = g := by simpa [Feed.next] using h
    have ht : t.kind ≠ .endOfInput := hf t List.mem_cons_self
    refine ⟨⟨fun u hu => hf u (List.mem_cons_of_mem _ hu), fun hk => absurd hk ht⟩, ?_⟩
    rw [readings_of_notEnd ht]
    rfl

/-- Where the next reading is a fault, the readings left end in it. -/
theorem collect_of_next_error {f g : Feed} {e : QueryError} (h : f.next = (.error e, g)) :
    collect f.readings = .error e := by
  obtain ⟨upcoming, ending⟩ := f
  cases upcoming with
  | nil =>
    have he : ending.reading = .error e := congrArg Prod.fst h
    simp [Feed.readings, he, collect]
  | cons r rest =>
    have hr : r = .error e := congrArg Prod.fst h
    simp [Feed.readings, hr, collect]

theorem advance_lexed {m : ParserState} (hs : Lexed s) (hk : s.current.kind ≠ .endOfInput)
    (h : advance s = .ok () m) : Lexed m ∧ readings s = .ok s.current :: readings m := by
  cases hn : s.feed.next with
  | mk r g =>
    cases r with
    | error e => simp [advance, hn] at h
    | ok t =>
      obtain rfl : ⟨t, g⟩ = m := by simpa [advance, hn] using h
      obtain ⟨hl, hr⟩ := next_lexed hs.notEnd hn
      exact ⟨hl, by rw [readings_of_notEnd hk, hr]⟩

theorem advance_of_collect {ts : List Token} (hk : s.current.kind ≠ .endOfInput)
    (h : collect (readings s) = .ok ts) : ∃ m, advance s = .ok () m := by
  cases hn : s.feed.next with
  | mk r g =>
    cases r with
    | error e => simp [readings_of_notEnd hk, collect, collect_of_next_error hn, Except.map] at h
    | ok t => exact ⟨⟨t, g⟩, by simp [advance, hn]⟩

theorem collect_cons_eq_ok {t : Token} {rs : List Reading} {ts : List Token} :
    collect (.ok t :: rs) = .ok ts ↔ ∃ us, collect rs = .ok us ∧ t :: us = ts := by
  rw [collect]
  cases collect rs <;> simp [Except.map]

theorem collect_eq_ok {rs : List Reading} {ts : List Token} : collect rs = .ok ts ↔ rs = ts.map .ok := by
  induction rs generalizing ts with
  | nil => cases ts <;> simp [collect]
  | cons r rs ih =>
    cases r with
    | error e => cases ts <;> simp [collect]
    | ok t =>
      rw [collect_cons_eq_ok]
      constructor
      · intro ⟨us, hus, hts⟩
        rw [ih.mp hus, ← hts]
        rfl
      · intro h
        cases ts with
        | nil => cases h
        | cons u us =>
          obtain ⟨hu, hus⟩ := List.cons.inj h
          exact ⟨us, ih.mpr hus, by rw [Except.ok.inj hu]⟩

/-- The tokens up to the end can be taken one after the other exactly when they are
    the readings left, none of them a fault. -/
theorem takes_to_end_iff (hs : Lexed s) {ks : List TokenKind} (hks : .endOfInput ∉ ks) :
    (∃ s', Takes s (ks ++ [.endOfInput]) s') ↔
      ∃ ts, collect (readings s) = .ok ts ∧ ts.map (·.kind) = ks ++ [.endOfInput] := by
  induction ks generalizing s with
  | nil =>
    constructor
    · rintro ⟨s', h⟩
      have hk := (Takes.single_iff.mp h).1
      exact ⟨[s.current], by simp [readings, hk, collect, Except.map], by simp [hk]⟩
    · rintro ⟨ts, hc, hts⟩
      obtain ⟨us, -, rfl⟩ := collect_cons_eq_ok.mp hc
      have hk : s.current.kind = .endOfInput := (List.cons.inj hts).1
      obtain ⟨hu, position, he⟩ := hs.atEnd hk
      have ha : advance s = .ok () ⟨⟨.endOfInput, "", position⟩, s.feed⟩ := by
        simp only [advance, Feed.next, hu, he, Token.Ending.reading]
      exact ⟨_, Takes.single_iff.mpr ⟨hk, ha⟩⟩
  | cons k ks ih =>
    have hk : k ≠ .endOfInput := fun he => hks (by simp [he])
    have hrest : .endOfInput ∉ ks := fun he => hks (List.mem_cons_of_mem _ he)
    constructor
    · rintro ⟨s', h⟩
      obtain ⟨rfl, m, ha, h⟩ := Takes.cons_iff.mp h
      obtain ⟨hm, hr⟩ := advance_lexed hs hk ha
      obtain ⟨ts, hc, hts⟩ := (ih hm hrest).mp ⟨s', h⟩
      exact ⟨s.current :: ts, by rw [hr]; exact collect_cons_eq_ok.mpr ⟨ts, hc, rfl⟩, by simp [hts]⟩
    · rintro ⟨ts, hc, hts⟩
      obtain ⟨us, -, hus⟩ := collect_cons_eq_ok.mp hc
      have hcur : s.current.kind = k := by
        rw [← hus] at hts
        exact (List.cons.inj hts).1
      have hne : s.current.kind ≠ .endOfInput := by rw [hcur]; exact hk
      obtain ⟨m, ha⟩ := advance_of_collect hne hc
      obtain ⟨hm, hr⟩ := advance_lexed hs hne ha
      rw [hr] at hc
      obtain ⟨vs, hvs, rfl⟩ := collect_cons_eq_ok.mp hc
      obtain ⟨s', h⟩ := (ih hm hrest).mpr ⟨vs, hvs, (List.cons.inj hts).2⟩
      exact ⟨s', Takes.cons_iff.mpr ⟨hcur, m, ha, h⟩⟩

/-! ## From a text to its end -/

theorem start_readings {text : String} (h : start text = .ok s) :
    Lexed s ∧ (Feed.ofText text).readings = readings s := by
  have hne := Token.read_ne_end .start text.toList
  cases hn : (Feed.ofText text).next with
  | mk r g =>
    rw [start, hn] at h
    cases r with
    | error e => cases h
    | ok t =>
      obtain rfl := Except.ok.inj h
      exact next_lexed hne hn

theorem start_lexed {text : String} (h : start text = .ok s) : Lexed s ∧ tokenize text = collect (readings s) :=
  ⟨(start_readings h).1, congrArg collect (start_readings h).2⟩

theorem start_of_tokenize {text : String} {ts : List Token} (h : tokenize text = .ok ts) : ∃ s, start text = .ok s := by
  cases hn : (Feed.ofText text).next with
  | mk r g =>
    cases r with
    | error e =>
      have he : tokenize text = .error e := collect_of_next_error hn
      rw [he] at h
      cases h
    | ok t => exact ⟨⟨t, g⟩, by rw [start, hn]⟩

theorem readings_of_tokenize {text : String} {ts : List Token} (h : tokenize text = .ok ts) :
    ∃ s, start text = .ok s ∧ Lexed s ∧ readings s = ts.map .ok := by
  obtain ⟨s, hs⟩ := start_of_tokenize h
  obtain ⟨hl, ht⟩ := start_lexed hs
  exact ⟨s, hs, hl, collect_eq_ok.mp (ht.symm.trans h)⟩

/-- A query is read to the end of the text exactly when its phrase and the end can be
    taken. -/
theorem query_eq_ok {q : Query Operand} :
    (∃ s', query s = .ok q s') ↔ ∃ d : QueryPhrase, d.query = q ∧ ∃ s', Takes s (d.tokens ++ [.endOfInput]) s' := by
  constructor
  · intro ⟨s', h⟩
    obtain ⟨a, m, ha, h⟩ := bind_eq_ok.mp h
    obtain ⟨_, n, he, h⟩ := bind_eq_ok.mp h
    obtain ⟨rfl, rfl⟩ := pure_eq_ok.mp h
    obtain ⟨d, hd, ht⟩ := operation_reads.sound ha
    exact ⟨d, hd, n, ht.append (expect_eq_ok.mp he)⟩
  · intro ⟨d, hd, s', h⟩
    obtain ⟨m, ht, he⟩ := Takes.append_iff.mp h
    have hm : m.current.kind ∉ clauseTokens := by simp [he.current_kind, clauseTokens]
    refine ⟨s', bind_eq_ok.mpr ⟨q, m, ?_, bind_eq_ok.mpr ⟨(), s', expect_eq_ok.mpr he, rfl⟩⟩⟩
    rw [← hd]
    exact operation_reads.complete d ht hm

end Parser

/-! ## Derivations -/

/-- A phrase derives the tokens of a text: they are its own and the end of input. -/
def QueryPhrase.Derives (d : QueryPhrase) (ts : List Token) : Prop := ts.map (·.kind) = d.tokens ++ [.endOfInput]

theorem derivation_unique {ts : List Token} {d d' : QueryPhrase} (h : d.Derives ts) (h' : d'.Derives ts) : d = d' :=
  query_unambiguous.injective (List.append_cancel_right (h.symm.trans h'))

/-- The texts of a phrase. -/
def QueryPhrase.WrittenAs (d : QueryPhrase) (text : String) : Prop := ∃ ts, tokenize text = .ok ts ∧ d.Derives ts

theorem QueryPhrase.writtenAs_of_tokens {d : QueryPhrase} {text : String}
    (h : (tokenize text).toOption.map (·.map (·.kind)) = some (d.tokens ++ [.endOfInput])) : d.WrittenAs text := by
  obtain ⟨ts, hts, hkinds⟩ := Option.map_eq_some_iff.mp h
  exact ⟨ts, except_toOption_eq_some.mp hts, hkinds⟩

theorem Query.parse_of_writtenAs {d : QueryPhrase} {text : String} (h : d.WrittenAs text) :
    Query.parse text = .ok d.query := by
  obtain ⟨ts, hts, hderives⟩ := h
  obtain ⟨s, hs⟩ := Parser.start_of_tokenize hts
  obtain ⟨hl, ht⟩ := Parser.start_lexed hs
  have htakes := (Parser.takes_to_end_iff hl (query_withoutEnd d)).mpr ⟨ts, ht.symm.trans hts, hderives⟩
  obtain ⟨s', hq⟩ := Parser.query_eq_ok.mpr ⟨d, rfl, htakes⟩
  simp only [parse, hs, Except.bind, hq]

/-- With a parser at the first token, a text is read as that parser goes on. -/
theorem Query.parse_of_start {text : String} {s : ParserState} (h : Parser.start text = .ok s) :
    Query.parse text = match Parser.query s with
      | .ok q _ => .ok q
      | .error e _ => .error e := by
  rw [parse, h]
  rfl

/-- A query that is read has a phrase, which the text spells. -/
theorem Query.writtenAs_of_parse {text : String} {q : Query Operand} (h : Query.parse text = .ok q) :
    ∃ d : QueryPhrase, d.WrittenAs text ∧ d.query = q := by
  cases hs : Parser.start text with
  | error e => rw [parse, hs] at h; cases h
  | ok s =>
    rw [parse_of_start hs] at h
    cases hq : Parser.query s with
    | error e m => rw [hq] at h; cases h
    | ok r m =>
      rw [hq] at h
      obtain rfl := Except.ok.inj h
      obtain ⟨hl, ht⟩ := Parser.start_lexed hs
      obtain ⟨d, hd, htakes⟩ := Parser.query_eq_ok.mp ⟨m, hq⟩
      obtain ⟨ts, hts, hderives⟩ := (Parser.takes_to_end_iff hl (query_withoutEnd d)).mp htakes
      exact ⟨d, ⟨ts, ht.trans hts, hderives⟩, hd⟩

theorem Token.tokenize_blank {text : String} (h : (Text.trim text.toList).isEmpty = true) :
    ∃ position, tokenize text = .ok [⟨.endOfInput, "", position⟩] := by
  have hblank : text.toList.dropWhile Text.isBlank = [] := by
    cases hc : Text.trimStart text.toList with
    | nil => exact hc
    | cons c r =>
      rw [Text.trim, hc, Text.trimEnd, List.isEmpty_reverse, List.isEmpty_iff, List.dropWhile_eq_nil_iff] at h
      have hne := Text.isBlank_head_trimStart c _ r hc
      rw [h c (by simp)] at hne
      cases hne
  have hread : Feed.ofText text = ⟨[], .atEnd (Position.start.after (text.toList.takeWhile Text.isBlank))⟩ := by
    rw [Feed.ofText, Feed.read]
    split
    · rfl
    · next hcons =>
      rw [hblank] at hcons
      cases hcons
  exact ⟨_, by rw [tokenize, hread]; rfl⟩

theorem QueryPhrase.tokens_ne_nil (d : QueryPhrase) : d.tokens ≠ [] := by
  cases d <;> exact List.cons_ne_nil _ _

/-- The texts of phrases are not blank. -/
theorem QueryPhrase.WrittenAs.not_blank {d : QueryPhrase} {text : String} (h : d.WrittenAs text) :
    (Text.trim text.toList).isEmpty = false := by
  obtain ⟨ts, hts, hderives⟩ := h
  refine Bool.eq_false_iff.mpr fun hblank => ?_
  obtain ⟨position, hend⟩ := Token.tokenize_blank hblank
  obtain rfl := Except.ok.inj (hend.symm.trans hts)
  have hnil : [TokenKind.endOfInput] = d.tokens ++ [.endOfInput] := hderives
  exact d.tokens_ne_nil (List.append_left_eq_self.mp hnil.symm)

/-- A text is a query exactly when its tokens have a derivation, and they have no
    other one. -/
theorem parse_eq_ok_iff (text : String) (q : Query Operand) :
    (Query.parse text = .ok q ↔ ∃ ts, tokenize text = .ok ts ∧ ∃ d : QueryPhrase, d.Derives ts ∧ d.query = q) ∧
      ∀ (ts : List Token) (d d' : QueryPhrase), d.Derives ts → d'.Derives ts → d = d' := by
  refine ⟨?_, fun ts d d' => derivation_unique⟩
  have hparse : ∀ {s}, Parser.start text = .ok s → (Query.parse text = .ok q ↔ ∃ s', Parser.query s = .ok q s') := by
    intro s hs
    simp only [Query.parse, hs, Except.bind]
    cases Parser.query s <;> simp
  constructor
  · intro h
    cases hs : Parser.start text with
    | error e => simp [Query.parse, hs, Except.bind] at h
    | ok s =>
      obtain ⟨hl, ht⟩ := Parser.start_lexed hs
      obtain ⟨d, hd, htakes⟩ := Parser.query_eq_ok.mp ((hparse hs).mp h)
      obtain ⟨ts, hts, hderives⟩ := (Parser.takes_to_end_iff hl (query_withoutEnd d)).mp htakes
      exact ⟨ts, ht.trans hts, d, hderives, hd⟩
  · intro ⟨ts, hts, d, hderives, hd⟩
    obtain ⟨s, hs⟩ := Parser.start_of_tokenize hts
    obtain ⟨hl, ht⟩ := Parser.start_lexed hs
    have htakes := (Parser.takes_to_end_iff hl (query_withoutEnd d)).mpr ⟨ts, ht.symm.trans hts, hderives⟩
    exact (hparse hs).mpr (Parser.query_eq_ok.mpr ⟨d, hd, htakes⟩)

end EntityQuery
