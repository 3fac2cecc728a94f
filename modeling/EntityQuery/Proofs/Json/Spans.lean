/-
  EntityQuery.Proofs.Json.Spans — the lexer and the reader of JSON agree on where a list or
  an object ends (`scans_of_parse`).

  The lexer knows of JSON only quotes, backslashes and brackets.

  (1) Passing. From one mode to another the lexer passes over part of a text if it closes
  nothing that was open before (`Passes`). It passes over a bracket, what it passes over
  inside, and the bracket that closes it (`Passes.bracketed`).

  (2) Leaves. Whatever the reader takes for a blank, a word or a number has neither quotes
  nor brackets; in a string it takes an escape where the lexer does, so both see the same
  closing quote (`stringTail_leaves`).

  (3) Values. So the lexer passes over all that is read as a value (`value_leaves`), and if
  that starts with a bracket, its last character is the one that closes the span.
-/

import EntityQuery.Proofs.Json.Reading
import EntityQuery.Proofs.Lexing.Lexeme

namespace EntityQuery.Json

open Token (span SpanEnd SpanMode)

/-! ## (1) Passing -/

/-- A span with some characters in front of it. -/
def behind (w : List Char) (x : SpanEnd × List Char × List Char) : SpanEnd × List Char × List Char :=
  (x.1, w ++ x.2.1, x.2.2)

/-- What the text has before the rest takes the lexer from one mode to another, whatever is
    open and whatever follows. -/
def Passes (m : SpanMode) (cs : List Char) (m' : SpanMode) (rest : List Char) : Prop :=
  ∃ w, cs = w ++ rest ∧ ∀ closers ≠ [], ∀ r, span closers m (w ++ r) = behind w (span closers m' r)

namespace Passes

variable {m m' m'' : SpanMode} {cs cs' rest : List Char} {c : Char}

theorem refl (m : SpanMode) (cs : List Char) : Passes m cs m cs := ⟨[], rfl, fun _ _ _ => rfl⟩

theorem trans (h : Passes m cs m' cs') (h' : Passes m' cs' m'' rest) : Passes m cs m'' rest := by
  obtain ⟨w, rfl, hw⟩ := h
  obtain ⟨w', rfl, hw'⟩ := h'
  refine ⟨w ++ w', (List.append_assoc ..).symm, fun closers hne r => ?_⟩
  rw [List.append_assoc, hw closers hne, hw' closers hne]
  simp [behind]

/-- The lexer takes one character whatever is open. -/
theorem of_step (h : ∀ closers ≠ [], ∀ r, span closers m (c :: r) = behind [c] (span closers m' r)) :
    Passes m (c :: cs) m' cs := ⟨[c], rfl, h⟩

theorem escaped : Passes .escaped (c :: cs) .inString cs := of_step fun _ _ _ => rfl

theorem inString : Passes .inString (c :: cs) (.inQuotes c) cs := of_step fun _ _ _ => rfl

theorem quote : Passes .outside ('"' :: cs) .inString cs := of_step fun _ _ _ => rfl

end Passes

/-- A character that means nothing to the lexer outside of strings. -/
def isPlain (c : Char) : Bool := !(['"', '[', ']', '\x7b', '\x7d'].contains c)

theorem span_plain {c : Char} (h : isPlain c = true) (closers r : List Char) :
    span closers .outside (c :: r) = behind [c] (span closers .outside r) := by
  simp only [isPlain, List.contains_eq_mem, List.mem_cons, List.not_mem_nil, or_false, not_or, Bool.not_eq_eq_eq_not,
    Bool.not_true, decide_eq_false_iff_not] at h
  obtain ⟨hquote, hopenList, hcloseList, hopenObject, hcloseObject⟩ := h
  simp [span, behind, Token.openBracket, hquote, hopenList, hcloseList, hopenObject, hcloseObject]

namespace Passes

variable {cs rest : List Char} {c : Char}

theorem plain (h : isPlain c = true) : Passes .outside (c :: cs) .outside cs := of_step fun closers _ r => span_plain h closers r

theorem dropWhile {p : Char → Bool} (h : ∀ c, p c = true → isPlain c = true) (cs : List Char) :
    Passes .outside cs .outside (cs.dropWhile p) := by
  induction cs with
  | nil => exact .refl _ _
  | cons c cs ih =>
    rw [List.dropWhile_cons]
    split
    · next hc => exact (plain (h c hc)).trans ih
    · exact .refl _ _

end Passes

/-- A bracket and the one that closes it. -/
inductive Bracket : Char → Char → Prop
  | list : Bracket '[' ']'
  | object : Bracket '\x7b' '\x7d'

variable {opener closer : Char}

theorem Bracket.span_opener (h : Bracket opener closer) (closers r : List Char) :
    span closers .outside (opener :: r) = behind [opener] (span (closer :: closers) .outside r) := by
  cases h <;> rfl

theorem Bracket.span_closer (h : Bracket opener closer) {closers : List Char} (hne : closers ≠ []) (r : List Char) :
    span (closer :: closers) .outside (closer :: r) = behind [closer] (span closers .outside r) := by
  obtain ⟨d, ds, rfl⟩ := List.exists_cons_of_ne_nil hne
  cases h <;> rfl

theorem Bracket.span_last (h : Bracket opener closer) (r : List Char) :
    span [closer] .outside (closer :: r) = (.closed, [closer], r) := by
  cases h <;> rfl

theorem Passes.bracketed (h : Bracket opener closer) {cs rest : List Char}
    (hinside : Passes .outside cs .outside (closer :: rest)) : Passes .outside (opener :: cs) .outside rest := by
  obtain ⟨w, rfl, hw⟩ := hinside
  refine ⟨opener :: (w ++ [closer]), by simp, fun closers hne r => ?_⟩
  have hopen := hw (closer :: closers) (List.cons_ne_nil _ _) (closer :: r)
  rw [List.cons_append, h.span_opener, List.append_assoc, List.singleton_append, hopen, h.span_closer hne]
  simp [behind]

/-- What lies between two brackets and is passed over is what the span ends behind. -/
theorem span_bracketed (h : Bracket opener closer) {cs rest : List Char}
    (hinside : Passes .outside cs .outside (closer :: rest)) :
    ∃ w, cs = w ++ closer :: rest ∧ ∀ r,
      span [] .outside (opener :: (w ++ closer :: r)) = (.closed, opener :: (w ++ [closer]), r) := by
  obtain ⟨w, rfl, hw⟩ := hinside
  refine ⟨w, rfl, fun r => ?_⟩
  rw [h.span_opener, hw _ (List.cons_ne_nil _ _), h.span_last]
  simp [behind]

/-! ## (2) Leaves -/

/-- Whatever is read, what is left of the text has the property. -/
def Leaves {α : Type} (r : Reading α) (p : List Char → Prop) : Prop := ∀ a rest, r = .ok (a, rest) → p rest

section Leaves

variable {α β : Type} {p q : List Char → Prop}

theorem leaves_fault (cause : Cause) (rest : List Char) (bytes : Nat) : Leaves (faultAt cause rest bytes : Reading α) p := nofun

theorem leaves_ok {a : α} {rest : List Char} (h : p rest) : Leaves (.ok (a, rest)) p := by
  intro _ _ heq
  rw [← (Prod.mk.inj (Except.ok.inj heq)).2]
  exact h

theorem leaves_ite {c : Prop} [Decidable c] {r s : Reading α} (hr : c → Leaves r p) (hs : ¬ c → Leaves s p) :
    Leaves (if c then r else s) p := by
  split
  · next hc => exact hr hc
  · next hc => exact hs hc

theorem leaves_bind {r : Reading α} {f : α × List Char → Reading β} (hr : Leaves r p)
    (hf : ∀ a rest, p rest → Leaves (f (a, rest)) q) : Leaves (r.bind f) q := by
  intro b rest h
  obtain ⟨⟨a, rest'⟩, hra, hfa⟩ := except_bind_eq_ok.mp h
  exact hf a rest' (hr a rest' hra) b rest hfa

theorem leaves_map {r : Reading α} {f : α → β} (hr : Leaves r p) : Leaves (r.map fun x => (f x.1, x.2)) p := by
  cases r with
  | error e => exact nofun
  | ok a => exact leaves_ok (hr a.1 a.2 rfl)

theorem Leaves.mono {r : Reading α} (hr : Leaves r p) (h : ∀ rest, p rest → q rest) : Leaves r q :=
  fun a rest heq => h rest (hr a rest heq)

/-- What was passed over before goes in front. -/
theorem Leaves.past {r : Reading α} {m m' m'' : SpanMode} {cs cs' : List Char} (hr : Leaves r (Passes m' cs' m''))
    (h : Passes m cs m' cs') : Leaves r (Passes m cs m'') := hr.mono fun _ => h.trans

end Leaves

/-! ### Strings -/

theorem inQuotes_of_hexValue? {c : Char} {n : Nat} (h : hexValue? c = some n) : SpanMode.inQuotes c = .inString := by
  have hne : c ≠ '\\' ∧ c ≠ '"' := by
    constructor
    · rintro rfl
      cases h
    · rintro rfl
      cases h
  simp [SpanMode.inQuotes, hne.1, hne.2]

theorem Passes.hexDigit {c : Char} {n : Nat} (h : hexValue? c = some n) {cs : List Char} :
    Passes .inString (c :: cs) .inString cs := by
  have hpass : Passes .inString (c :: cs) (SpanMode.inQuotes c) cs := .inString
  rwa [inQuotes_of_hexValue? h] at hpass

theorem hexEscape_leaves (cs : List Char) : Leaves (hexEscape cs) (Passes .inString cs .inString) := by
  unfold hexEscape
  split
  · next a b c d cs =>
    split
    · next n hquad =>
      simp only [hexQuad?, Option.bind_eq_bind, Option.bind_eq_some_iff] at hquad
      obtain ⟨w, hw, x, hx, y, hy, z, hz, -⟩ := hquad
      exact leaves_ok ((Passes.hexDigit hw).trans <| (Passes.hexDigit hx).trans <| (Passes.hexDigit hy).trans (.hexDigit hz))
    · exact leaves_fault _ _ _
  · exact leaves_ite (fun _ => leaves_fault _ _ _) fun _ => leaves_fault _ _ _

theorem trailingHalf_leaves (cs : List Char) : Leaves (trailingHalf cs) (Passes .inString cs .inString) := by
  unfold trailingHalf
  split
  · next cs =>
    refine leaves_bind (hexEscape_leaves cs) fun n rest hrest => ?_
    exact leaves_ite (fun _ => leaves_ok (Passes.inString.trans (Passes.escaped.trans hrest))) fun _ => leaves_fault _ _ _
  all_goals exact leaves_fault _ _ _

theorem unicodeEscape_leaves (cs : List Char) : Leaves (unicodeEscape cs) (Passes .inString cs .inString) := by
  unfold unicodeEscape
  refine leaves_bind (hexEscape_leaves cs) fun n rest hrest => ?_
  refine leaves_ite (fun _ => leaves_fault _ _ _) fun _ => leaves_ite (fun _ => ?_) fun _ => leaves_ok hrest
  exact leaves_bind (trailingHalf_leaves rest) fun m rest' hrest' => leaves_ok (hrest.trans hrest')

theorem escape_leaves (cs : List Char) : Leaves (escape cs) (Passes .escaped cs .inString) := by
  cases cs with
  | nil => exact leaves_fault _ _ _
  | cons c cs =>
    refine leaves_ite (fun _ => (unicodeEscape_leaves cs).past .escaped) fun _ => ?_
    split
    · exact leaves_ok .escaped
    · exact leaves_fault _ _ _

theorem stringTail_leaves (read cs : List Char) : Leaves (stringTail read cs) (Passes .inString cs .outside) := by
  fun_induction stringTail read cs with
  | case1 read => exact leaves_fault _ _ _
  | case2 read c cs hc =>
    obtain rfl : c = '"' := beq_iff_eq.mp hc
    exact leaves_ok .inString
  | case3 read c cs hquote hc e rest hescape hlt ih =>
    obtain rfl : c = '\\' := beq_iff_eq.mp hc
    exact ih.past (Passes.inString.trans (escape_leaves cs e rest hescape))
  | case4 => exact nofun
  | case5 => exact leaves_fault _ _ _
  | case6 read c cs hquote hescape hcontrol ih =>
    have hpass : Passes .inString (c :: cs) (SpanMode.inQuotes c) cs := .inString
    have hmode : SpanMode.inQuotes c = .inString := by simp [SpanMode.inQuotes, hquote, hescape]
    rw [hmode] at hpass
    exact ih.past hpass

/-! ### Words and numbers -/

theorem isPlain_of_isSpace {c : Char} (h : isSpace c = true) : isPlain c = true := by
  simp only [isSpace, Bool.or_eq_true, beq_iff_eq] at h
  rcases h with ((rfl | rfl) | rfl) | rfl <;> decide

theorem isPlain_of_isDigit {c : Char} (h : c.isDigit = true) : isPlain c = true := by
  have hothers : ∀ d ∈ ['"', '[', ']', '\x7b', '\x7d'], d.isDigit = false := by simp
  have hnotin : c ∉ ['"', '[', ']', '\x7b', '\x7d'] := fun hin => ne_of_isDigit h (hothers c hin) rfl
  simp only [isPlain, List.contains_eq_mem, hnotin, decide_false, Bool.not_false]

theorem passes_skipSpace (cs : List Char) : Passes .outside cs .outside (skipSpace cs) :=
  .dropWhile (fun _ => isPlain_of_isSpace) cs

theorem passes_digits (cs : List Char) : Passes .outside cs .outside (cs.dropWhile Char.isDigit) :=
  .dropWhile (fun _ => isPlain_of_isDigit) cs

theorem word_leaves {α : Type} (a : α) {ws : List Char} (h : ∀ w ∈ ws, isPlain w = true) (cs : List Char) :
    Leaves (word a ws cs) (Passes .outside cs .outside) := by
  induction ws generalizing cs with
  | nil => exact leaves_ok (.refl _ _)
  | cons w ws ih =>
    obtain ⟨hw, hws⟩ := List.forall_mem_cons.mp h
    cases cs with
    | nil => exact leaves_fault _ _ _
    | cons c cs =>
      refine leaves_ite (fun hc => ?_) fun _ => leaves_fault _ _ _
      obtain rfl : c = w := beq_iff_eq.mp hc
      exact (ih hws cs).past (.plain hw)

theorem passes_gather (limit n count : Nat) (cs : List Char) :
    Passes .outside cs .outside (gather limit n count cs).2.2 := by
  induction cs generalizing n count with
  | nil => exact .refl _ _
  | cons c cs ih =>
    rw [gather]
    split
    · next hnext => exact (Passes.plain (isPlain_of_isDigit (Bool.and_eq_true _ _ ▸ hnext).1)).trans (ih _ _)
    · exact .refl _ _

section Number

variable (negative : Bool) (n : Nat) (power : Int) (cs : List Char)

theorem finishFloat_leaves : Leaves (finishFloat negative n power cs) (Passes .outside cs .outside) := by
  unfold finishFloat
  split
  · exact leaves_ok (.refl _ _)
  · exact leaves_fault _ _ _

theorem powerDigits_leaves (down : Bool) : Leaves (powerDigits negative n power down cs) (Passes .outside cs .outside) := by
  unfold powerDigits
  split
  · exact leaves_fault _ _ _
  · next c cs =>
    have hgather := passes_gather 0x7FFFFFFF 0 0 (c :: cs)
    refine leaves_ite (fun _ => ?_) fun _ => leaves_fault _ _ _
    refine leaves_ite (fun _ => ?_) fun _ => (finishFloat_leaves _ _ _ _).past hgather
    exact leaves_ite (fun _ => leaves_fault _ _ _) fun _ => leaves_ok (hgather.trans (passes_digits _))

theorem powerPart_leaves : Leaves (powerPart negative n power cs) (Passes .outside cs .outside) := by
  unfold powerPart
  split
  · exact (powerDigits_leaves _ _ _ _ _).past (.plain rfl)
  · exact (powerDigits_leaves _ _ _ _ _).past (.plain rfl)
  · exact powerDigits_leaves _ _ _ _ _

theorem floatEnd_leaves : Leaves (floatEnd negative n power cs) (Passes .outside cs .outside) := by
  unfold floatEnd
  split
  · exact (powerPart_leaves _ _ _ _).past (.plain rfl)
  · exact (powerPart_leaves _ _ _ _).past (.plain rfl)
  · exact finishFloat_leaves _ _ _ _

theorem fractionPart_leaves : Leaves (fractionPart negative n power cs) (Passes .outside cs .outside) := by
  have hgather := passes_gather 0xFFFFFFFFFFFFFFFF n 0 cs
  unfold fractionPart
  refine leaves_ite (fun _ => (floatEnd_leaves _ _ _ _).past (hgather.trans (passes_digits _))) fun _ => ?_
  refine leaves_ite (fun _ => ?_) fun _ => (floatEnd_leaves _ _ _ _).past hgather
  exact leaves_ite (fun _ => leaves_fault _ _ _) fun _ => leaves_fault _ _ _

theorem wholeEnd_leaves : Leaves (wholeEnd negative n cs) (Passes .outside cs .outside) := by
  unfold wholeEnd
  split
  · exact (fractionPart_leaves _ _ _ _).past (.plain rfl)
  · exact (powerPart_leaves _ _ _ _).past (.plain rfl)
  · exact (powerPart_leaves _ _ _ _).past (.plain rfl)
  · exact leaves_ok (.refl _ _)

theorem longEnd_leaves : Leaves (longEnd negative n power cs) (Passes .outside cs .outside) := by
  unfold longEnd
  split
  · exact (fractionPart_leaves _ _ _ _).past (.plain rfl)
  · exact floatEnd_leaves _ _ _ _

theorem number_leaves : Leaves (number negative cs) (Passes .outside cs .outside) := by
  unfold number
  split
  · exact leaves_fault _ _ _
  · exact leaves_ite (fun _ => leaves_fault _ _ _) fun _ =>
      (wholeEnd_leaves _ _ _).past (.plain rfl)
  · next c cs _ =>
    have hgather := passes_gather 0xFFFFFFFFFFFFFFFF 0 0 (c :: cs)
    refine leaves_ite (fun _ => ?_) fun _ => leaves_fault _ _ _
    refine leaves_ite (fun _ => ?_) fun _ => (wholeEnd_leaves _ _ _).past hgather
    exact (longEnd_leaves _ _ _ _).past (hgather.trans (passes_digits _))

end Number

/-! ## (3) Values -/

theorem colon_leaves (cs : List Char) : Leaves (colon cs) (Passes .outside cs .outside) := by
  have hspace := passes_skipSpace cs
  unfold colon
  split
  · exact leaves_fault _ _ _
  · next c r hcs =>
    rw [hcs] at hspace
    refine leaves_ite (fun hc => leaves_ok ?_) fun _ => leaves_fault _ _ _
    obtain rfl : c = ':' := beq_iff_eq.mp hc
    exact hspace.trans (.plain rfl)

section Items

variable {item : List Char → Reading Json} (hitem : ∀ cs, Leaves (item cs) (Passes .outside cs .outside))
include hitem

/-- The bracket that closes the list is still ahead where the items end. -/
theorem listTail_leaves (fuel : Nat) (first : Bool) (read : List Json) (cs : List Char) :
    Leaves (listTail item fuel first read cs) fun rest => Passes .outside cs .outside (']' :: rest) := by
  induction fuel generalizing first read cs with
  | zero => exact leaves_fault _ _ _
  | succ fuel ih =>
    have hnext : ∀ cs, Leaves ((item cs).bind fun x => listTail item fuel false (x.1 :: read) x.2)
        fun rest => Passes .outside cs .outside (']' :: rest) := fun cs =>
      leaves_bind (hitem cs) fun v rest hrest => (ih false (v :: read) rest).mono fun _ => hrest.trans
    have hspace := passes_skipSpace cs
    unfold listTail
    dsimp only
    split
    · exact leaves_fault _ _ _
    · next c r hcs =>
      rw [hcs] at hspace
      refine leaves_ite (fun hc => leaves_ok ?_) fun _ => leaves_ite (fun _ => (hnext _).mono fun _ => hspace.trans) fun _ =>
        leaves_ite (fun hc => ?_) fun _ => leaves_fault _ _ _
      · obtain rfl : c = ']' := beq_iff_eq.mp hc
        exact hspace
      · obtain rfl : c = ',' := beq_iff_eq.mp hc
        have hcomma := (hspace.trans (.plain rfl)).trans (passes_skipSpace r)
        split
        · exact leaves_fault _ _ _
        · next d q hr =>
          rw [hr] at hcomma
          exact leaves_ite (fun _ => leaves_fault _ _ _) fun _ => (hnext _).mono fun _ => hcomma.trans

theorem objectTail_leaves (fuel : Nat) (first : Bool) (read : List (String × Json)) (cs : List Char) :
    Leaves (objectTail item fuel first read cs) fun rest => Passes .outside cs .outside ('\x7d' :: rest) := by
  induction fuel generalizing first read cs with
  | zero => exact leaves_fault _ _ _
  | succ fuel ih =>
    have hnext : ∀ cs, Leaves ((stringTail [] cs).bind fun x => (colon x.2).bind fun y =>
        (item y.2).bind fun z => objectTail item fuel false (setField read x.1 z.1) z.2)
        fun rest => Passes .inString cs .outside ('\x7d' :: rest) := fun cs =>
      leaves_bind (stringTail_leaves [] cs) fun name afterName hname => leaves_bind (colon_leaves afterName) fun _ afterColon hcolon =>
        leaves_bind (hitem afterColon) fun v rest hrest => (ih false (setField read name v) rest).mono fun _ =>
          ((hname.trans hcolon).trans hrest).trans
    have hspace := passes_skipSpace cs
    unfold objectTail
    dsimp only
    split
    · exact leaves_fault _ _ _
    · next c r hcs =>
      rw [hcs] at hspace
      refine leaves_ite (fun hc => leaves_ok ?_) fun _ => leaves_ite (fun _ => ?_) fun _ =>
        leaves_ite (fun hc => ?_) fun _ => leaves_fault _ _ _
      · obtain rfl : c = '\x7d' := beq_iff_eq.mp hc
        exact hspace
      · refine leaves_ite (fun hc => ?_) fun _ => leaves_fault _ _ _
        obtain rfl : c = '"' := beq_iff_eq.mp hc
        exact (hnext r).mono fun _ => (hspace.trans .quote).trans
      · obtain rfl : c = ',' := beq_iff_eq.mp hc
        have hcomma := (hspace.trans (.plain rfl)).trans (passes_skipSpace r)
        split
        · exact leaves_fault _ _ _
        · next d q hr =>
          rw [hr] at hcomma
          refine leaves_ite (fun hd => ?_) fun _ => leaves_ite (fun _ => leaves_fault _ _ _) fun _ => leaves_fault _ _ _
          obtain rfl : d = '"' := beq_iff_eq.mp hd
          exact (hnext q).mono fun _ => (hcomma.trans .quote).trans

end Items

theorem valueWith_leaves {nested? : Option (List Char → Reading Json)}
    (hnested : ∀ item, nested? = some item → ∀ cs, Leaves (item cs) (Passes .outside cs .outside)) (cs : List Char) :
    Leaves (valueWith nested? cs) (Passes .outside cs .outside) := by
  have hspace := passes_skipSpace cs
  unfold valueWith
  split
  · exact leaves_fault _ _ _
  · next c r hcs =>
    rw [hcs] at hspace
    have hword : ∀ (v : Json) (ws : List Char), isPlain c = true → ws.all isPlain = true →
        Leaves (word v ws r) (Passes .outside cs .outside) := fun v ws hc hws =>
      (word_leaves v (List.all_eq_true.mp hws) r).past (hspace.trans (.plain hc))
    refine leaves_ite (fun hc => ?_) fun _ => leaves_ite (fun hc => ?_) fun _ => leaves_ite (fun hc => ?_) fun _ =>
      leaves_ite (fun hc => ?_) fun _ => leaves_ite (fun _ => ?_) fun _ => leaves_ite (fun hc => ?_) fun _ =>
      leaves_ite (fun hbracket => ?_) fun _ => leaves_fault _ _ _
    · exact hword .null _ (by rw [beq_iff_eq.mp hc]; rfl) (by decide)
    · exact hword (.bool true) _ (by rw [beq_iff_eq.mp hc]; rfl) (by decide)
    · exact hword (.bool false) _ (by rw [beq_iff_eq.mp hc]; rfl) (by decide)
    · have hminus : isPlain c = true := by rw [beq_iff_eq.mp hc]; rfl
      exact (leaves_map (number_leaves true r)).past (hspace.trans (.plain hminus))
    · exact (leaves_map (number_leaves false (c :: r))).past hspace
    · obtain rfl : c = '"' := beq_iff_eq.mp hc
      exact (leaves_map (stringTail_leaves [] r)).past (hspace.trans .quote)
    · split
      · exact leaves_fault _ _ _
      · next item =>
        have hitem := hnested item rfl
        refine leaves_ite (fun hc => ?_) fun hc => ?_
        · obtain rfl : c = '[' := beq_iff_eq.mp hc
          exact (leaves_map (listTail_leaves hitem _ _ _ _)).mono fun _ hrest => hspace.trans (.bracketed .list hrest)
        · obtain rfl : c = '\x7b' := beq_iff_eq.mp ((Bool.or_eq_true _ _ ▸ hbracket).resolve_left hc)
          exact (leaves_map (objectTail_leaves hitem _ _ _ _)).mono fun _ hrest => hspace.trans (.bracketed .object hrest)

theorem value_leaves (levels : Nat) (cs : List Char) : Leaves (value levels cs) (Passes .outside cs .outside) := by
  induction levels generalizing cs with
  | zero =>
    refine valueWith_leaves (fun item hitem => ?_) cs
    cases hitem
  | succ levels ih => exact valueWith_leaves (fun item hitem => Option.some.inj hitem ▸ ih) cs

/-- A text from a bracket to the one that closes it. -/
def Bracketed (cs : List Char) : Prop := ∃ opener closer body, Bracket opener closer ∧ cs = opener :: (body ++ [closer])

/-- Behind its opening bracket, a list or an object goes on to its closing one. -/
theorem passes_of_value (h : Bracket opener closer) {levels : Nat} {cs rest : List Char} {v : Json}
    (hv : value levels (opener :: cs) = .ok (v, rest)) : Passes .outside cs .outside (closer :: rest) := by
  cases levels with
  | zero => cases h <;> cases hv
  | succ levels =>
    cases h with
    | list =>
      exact leaves_map (f := Json.array) (listTail_leaves (value_leaves levels) (cs.length + 1) true [] cs) v rest hv
    | object =>
      exact leaves_map (f := Json.object) (objectTail_leaves (value_leaves levels) (cs.length + 1) true [] cs) v rest hv

/-- Whatever follows a list or an object that is read, the lexer takes it and nothing else. -/
theorem span_of_parse {cs : List Char} {v : Json} (hcs : Bracketed cs) (hv : parse cs = .ok v) (r : List Char) :
    span [] .outside (cs ++ r) = (.closed, cs, r) := by
  obtain ⟨opener, closer, body, hbracket, rfl⟩ := hcs
  obtain ⟨rest, hvalue, hrest⟩ := value_of_parse hv
  obtain ⟨w, hw, hspan⟩ := span_bracketed hbracket (passes_of_value hbracket hvalue)
  -- only blanks can be left, and the last character is no blank
  obtain rfl : rest = [] := by
    by_contra hne
    have hlast : closer = rest.getLast hne := by
      have hends := congrArg List.getLast? hw
      simpa [List.getLast?_append, List.getLast?_cons, List.getLast?_eq_getLast_of_ne_nil hne] using hends
    have hblank : isSpace closer = true := by
      rw [hlast]
      exact List.dropWhile_eq_nil_iff.mp hrest _ (List.getLast_mem hne)
    cases hbracket <;> cases hblank
  rw [List.append_cancel_right hw, List.cons_append, List.append_assoc]
  exact hspan r

theorem scans_of_parse {j : String} {v : Json} (hj : Bracketed j.toList) (hv : parse j.toList = .ok v) (r : List Char) :
    Token.Scans (.json j) j.toList r := by
  have hspan := span_of_parse hj hv r
  obtain ⟨opener, closer, body, hbracket, hcs⟩ := hj
  have hscan : ∀ cs, Token.scan opener cs = Token.scanJson (opener :: cs) ∧ Text.isBlank opener = false := by
    intro cs
    cases hbracket <;> exact ⟨rfl, by decide⟩
  refine ⟨opener, body ++ [closer], hcs, (hscan []).2, ?_⟩
  rw [(hscan _).1, ← List.cons_append, ← hcs, Token.scanJson, hspan]
  simp only [String.ofList_toList]

end EntityQuery.Json
