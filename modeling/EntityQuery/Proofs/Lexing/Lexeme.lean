/-
  EntityQuery.Proofs.Lexing.Lexeme — where a lexeme ends does not depend on how the text
  goes on, as long as it does not go on in a way that could make the lexeme longer
  (`Scans.of_milder`), and a keyword stays the same one in any ASCII case
  (`Scans.recased`).

  All that a scanner looks at behind a lexeme is whether a digit, a character of a
  name, an equals sign or a point with a digit comes next. One text is milder than
  another when it does none of these that the other does not (`Milder`): a text that
  starts with a blank is milder than any.
-/

import EntityQuery.Token.Lexer
import Mathlib.Data.List.TakeWhile

namespace EntityQuery.Token

/-! ## Characters -/

/-- The code points of the blanks. -/
def blankCodes : List Nat :=
  [0x09, 0x0A, 0x0B, 0x0C, 0x0D, 0x20, 0x85, 0xA0, 0x1680, 0x2000, 0x2001, 0x2002, 0x2003, 0x2004, 0x2005, 0x2006,
   0x2007, 0x2008, 0x2009, 0x200A, 0x2028, 0x2029, 0x202F, 0x205F, 0x3000]

theorem toNat_mem_blankCodes {c : Char} (h : Text.isBlank c = true) : c.toNat ∈ blankCodes := by
  simp only [Text.isBlank, Text.inRanges, Text.blankRanges, List.any_cons, List.any_nil, Bool.or_eq_true,
    Bool.and_eq_true, decide_eq_true_eq, Bool.false_eq_true, or_false] at h
  simp only [blankCodes, List.mem_cons, List.not_mem_nil, or_false]
  omega

/-- A blank belongs to no class of characters that a scanner looks for. -/
theorem class_of_isBlank {c : Char} (h : Text.isBlank c = true) :
    Text.isNamePart c = false ∧ c.isDigit = false ∧ c ≠ '=' ∧ c ≠ '.' := by
  have hall : ∀ n ∈ blankCodes, Text.isNamePart (Char.ofNat n) = false ∧ (Char.ofNat n).isDigit = false ∧
      Char.ofNat n ≠ '=' ∧ Char.ofNat n ≠ '.' := by decide +kernel
  have hc := hall c.toNat (toNat_mem_blankCodes h)
  rwa [Char.ofNat_toNat] at hc

theorem toLower_of_not_upper {c : Char} (h : ¬ (65 ≤ c.toNat ∧ c.toNat ≤ 90)) : c.toLower = c :=
  dif_neg (by simpa [UInt32.le_iff_toNat_le, ← Char.toNat_val] using h)

/-- Lower case changes no class of characters that a scanner looks for. -/
theorem class_toLower (c : Char) :
    Text.isNamePart c.toLower = Text.isNamePart c ∧ Text.isNameStart c.toLower = Text.isNameStart c ∧
      c.toLower.isDigit = c.isDigit ∧ (c.toLower = '=' ↔ c = '=') ∧ (c.toLower = '.' ↔ c = '.') := by
  by_cases h : 65 ≤ c.toNat ∧ c.toNat ≤ 90
  · have hall : ∀ n < 26, ∀ c, c = Char.ofNat (n + 65) →
        Text.isNamePart c.toLower = Text.isNamePart c ∧ Text.isNameStart c.toLower = Text.isNameStart c ∧
          c.toLower.isDigit = c.isDigit ∧ (c.toLower = '=' ↔ c = '=') ∧ (c.toLower = '.' ↔ c = '.') := by
      simp only [forall_eq]
      decide +kernel
    refine hall (c.toNat - 65) (by omega) c ?_
    rw [Nat.sub_add_cancel h.1, Char.ofNat_toNat]
  · rw [toLower_of_not_upper h]
    simp

/-- The same characters, up to the ASCII case of letters. -/
def Recased (w' w : List Char) : Prop := w'.map Char.toLower = w.map Char.toLower

theorem recased_cons {c' c : Char} {w' w : List Char} :
    Recased (c' :: w') (c :: w) ↔ c'.toLower = c.toLower ∧ Recased w' w := by
  simp [Recased]

theorem Recased.exists_mem {w' w : List Char} (h : Recased w' w) {d : Char} (hd : d ∈ w') :
    ∃ e ∈ w, d.toLower = e.toLower := by
  have hm : d.toLower ∈ w.map Char.toLower := h ▸ List.mem_map_of_mem hd
  obtain ⟨e, he, heq⟩ := List.mem_map.mp hm
  exact ⟨e, he, heq.symm⟩

theorem class_of_toLower_eq {c' c : Char} (h : c'.toLower = c.toLower) :
    Text.isNamePart c' = Text.isNamePart c ∧ Text.isNameStart c' = Text.isNameStart c ∧
      c'.isDigit = c.isDigit ∧ (c' = '=' ↔ c = '=') ∧ (c' = '.' ↔ c = '.') := by
  obtain ⟨h₁, h₂, h₃, h₄, h₅⟩ := class_toLower c
  obtain ⟨h₁', h₂', h₃', h₄', h₅'⟩ := class_toLower c'
  rw [h] at h₁' h₂' h₃' h₄' h₅'
  exact ⟨h₁'.symm.trans h₁, h₂'.symm.trans h₂, h₃'.symm.trans h₃, h₄'.symm.trans h₄, h₅'.symm.trans h₅⟩

theorem toLower_ofList (cs : List Char) : (String.ofList cs).toLower = String.ofList (cs.map Char.toLower) := by
  show String.map Char.toLower (String.ofList cs) = _
  rw [← String.toList_inj, String.toList_map]
  simp

theorem lookup?_recased {w' w : List Char} (h : Recased w' w) :
    Keyword.lookup? (String.ofList w') = Keyword.lookup? (String.ofList w) := by
  simp only [Keyword.lookup?, toLower_ofList]
  rw [h]

/-! ## What stands behind a lexeme -/

/-- Whether a text starts with a character of a class. -/
def opens (p : Char → Bool) : List Char → Bool
  | c :: _ => p c
  | [] => false

/-- Whether a text starts with a point and a digit. -/
def opensFraction : List Char → Bool
  | c :: cs => c == '.' && opens Char.isDigit cs
  | [] => false

theorem startsWithDigit_eq (cs : List Char) : startsWithDigit cs = opens Char.isDigit cs := by cases cs <;> rfl

/-- One text can make no lexeme before it longer that the other cannot. -/
structure Milder (r' r : List Char) : Prop where
  digit : opens Char.isDigit r' = true → opens Char.isDigit r = true
  name : opens Text.isNamePart r' = true → opens Text.isNamePart r = true
  equals : opens (· == '=') r' = true → opens (· == '=') r = true
  fraction : opensFraction r' = true → opensFraction r = true

namespace Milder

variable {r' r w' w : List Char}

theorem of_nil (r : List Char) : Milder [] r := ⟨nofun, nofun, nofun, nofun⟩

theorem of_blank {c : Char} (h : Text.isBlank c = true) (r' r : List Char) : Milder (c :: r') r := by
  obtain ⟨hn, hd, he, hp⟩ := class_of_isBlank h
  constructor <;> simp [opens, opensFraction, hn, hd, he, hp]

theorem opens_append {p : Char → Bool} (hp : ∀ {c' c : Char}, c'.toLower = c.toLower → p c' = p c)
    (hw : Recased w' w) (h : opens p r' = true → opens p r = true) (ho : opens p (w' ++ r') = true) :
    opens p (w ++ r) = true := by
  cases w with
  | nil =>
    obtain rfl : w' = [] := List.map_eq_nil_iff.mp hw
    exact h ho
  | cons c w =>
    cases w' with
    | nil => cases hw
    | cons c' w' => exact (hp (recased_cons.mp hw).1).symm.trans ho

/-- The case of letters is nothing that a scanner looks for. -/
theorem append (h : Milder r' r) (hw : Recased w' w) : Milder (w' ++ r') (w ++ r) where
  digit := opens_append (fun hc => (class_of_toLower_eq hc).2.2.1) hw h.digit
  name := opens_append (fun hc => (class_of_toLower_eq hc).1) hw h.name
  equals := opens_append (fun hc => by simp only [Bool.beq_eq_decide_eq, (class_of_toLower_eq hc).2.2.2.1]) hw h.equals
  fraction ho := by
    cases w with
    | nil =>
      obtain rfl : w' = [] := List.map_eq_nil_iff.mp hw
      exact h.fraction ho
    | cons c w =>
      cases w' with
      | nil => cases hw
      | cons c' w' =>
        obtain ⟨hc, hw⟩ := recased_cons.mp hw
        simp only [List.cons_append, opensFraction, Bool.and_eq_true, beq_iff_eq] at ho ⊢
        exact ⟨(class_of_toLower_eq hc).2.2.2.2.mp ho.1,
          opens_append (fun hc => (class_of_toLower_eq hc).2.2.1) hw h.digit ho.2⟩

end Milder

/-! ## The scanners -/

/-- A scanner, behind a first character, whose lexemes end where they do before any
    milder text. -/
def Stable (c : Char) (f : List Char → Scan) : Prop :=
  ∀ ⦃cs r r' : List Char⦄ ⦃kind : TokenKind⦄,
    f (cs ++ r) = ⟨.ok kind, c :: cs, r⟩ → Milder r' r → f (cs ++ r') = ⟨.ok kind, c :: cs, r'⟩

theorem stable_ite {c : Char} {p : Prop} [Decidable p] {f g : List Char → Scan} (hf : Stable c f) (hg : Stable c g) :
    Stable c fun cs => if p then f cs else g cs := by
  intro cs r r' kind h hm
  by_cases hp : p
  · simp only [if_pos hp] at h ⊢
    exact hf h hm
  · simp only [if_neg hp] at h ⊢
    exact hg h hm

theorem opens_dropWhile (p : Char → Bool) (cs : List Char) : opens p (cs.dropWhile p) = false := by
  induction cs with
  | nil => rfl
  | cons c cs ih =>
    rw [List.dropWhile_cons]
    by_cases hc : p c = true
    · rw [if_pos hc]; exact ih
    · rw [if_neg hc]; exact Bool.eq_false_iff.mpr hc

/-- A run of characters of a class, cut off where the class ends. -/
theorem takeWhile_append_iff {p : Char → Bool} {cs r : List Char} :
    ((cs ++ r).takeWhile p = cs ∧ (cs ++ r).dropWhile p = r) ↔ (∀ c ∈ cs, p c = true) ∧ opens p r = false := by
  constructor
  · intro ⟨ht, hd⟩
    refine ⟨fun c hc => List.mem_takeWhile_imp (ht ▸ hc), ?_⟩
    rw [← hd]
    exact opens_dropWhile p _
  · intro ⟨hall, hr⟩
    rw [List.takeWhile_append_of_pos hall, List.dropWhile_append_of_pos hall]
    cases r with
    | nil => simp
    | cons d r =>
      have hd : p d = false := hr
      simp [hd]

theorem stable_string (c : Char) : Stable c (scanString c) := by
  intro cs r r' kind h _
  unfold scanString at h
  split at h
  · cases h
  · next q rest hrest =>
    simp only [Scan.mk.injEq, Except.ok.injEq, List.cons_append, List.cons.injEq, true_and] at h
    obtain ⟨rfl, hcs, rfl⟩ := h
    generalize hbody : (cs ++ rest).takeWhile (· != c) = body at hcs
    have hall : ∀ d ∈ body, (d != c) = true := by
      intro d hd
      rw [← hbody] at hd
      exact List.mem_takeWhile_imp (p := (· != c)) hd
    have hq : opens (· != c) (q :: r') = false := by
      have hdrop := opens_dropWhile (· != c) (cs ++ rest)
      rwa [hrest] at hdrop
    obtain ⟨htake, hdrop⟩ := takeWhile_append_iff.mpr ⟨hall, hq⟩
    unfold scanString
    rw [← hcs, List.append_assoc, List.singleton_append, htake, hdrop]
    rfl

theorem span_taken_ne_nil (closers : List Char) (mode : SpanMode) (c : Char) (cs : List Char) :
    (span closers mode (c :: cs)).2.1 ≠ [] := by
  unfold span
  cases mode <;> simp only
  · split
    · exact List.cons_ne_nil _ _
    · split
      · split
        · split
          · exact List.cons_ne_nil _ _
          · split <;> exact List.cons_ne_nil _ _
        · exact List.cons_ne_nil _ _
      · exact List.cons_ne_nil _ _
  · exact List.cons_ne_nil _ _
  · exact List.cons_ne_nil _ _

theorem span_append {closers : List Char} {mode : SpanMode} {cs r : List Char}
    (h : span closers mode (cs ++ r) = (.closed, cs, r)) (r' : List Char) :
    span closers mode (cs ++ r') = (.closed, cs, r') := by
  induction cs generalizing closers mode with
  | nil =>
    cases r with
    | nil => cases h
    | cons c r =>
      have htaken := span_taken_ne_nil closers mode c r
      rw [List.nil_append] at h
      exact absurd (by rw [h]) htaken
  | cons c cs ih =>
    -- wherever the span goes on behind the first character, the hypothesis is about what follows it
    have hgo : ∀ {closers mode}, ((span closers mode (cs ++ r)).1, c :: (span closers mode (cs ++ r)).2.1,
          (span closers mode (cs ++ r)).2.2) = (.closed, c :: cs, r) →
        ((span closers mode (cs ++ r')).1, c :: (span closers mode (cs ++ r')).2.1,
          (span closers mode (cs ++ r')).2.2) = (.closed, c :: cs, r') := by
      intro closers mode h
      simp only [Prod.mk.injEq, List.cons.injEq, true_and] at h
      rw [ih (Prod.ext h.1 (Prod.ext h.2.1 h.2.2))]
    rw [List.cons_append] at h ⊢
    unfold span at h ⊢
    cases mode with
    | escaped => exact hgo h
    | inString => exact hgo h
    | outside =>
      simp only at h ⊢
      split at h
      · next hq => rw [if_pos hq]; exact hgo h
      next hq =>
      rw [if_neg hq]
      split at h
      · next hc =>
        rw [if_pos hc]
        cases closers with
        | nil => cases h
        | cons d ds =>
          simp only at h ⊢
          split at h
          · cases h
          next hd =>
          rw [if_neg hd]
          split at h
          · next hds =>
            rw [if_pos hds]
            simp only [Prod.mk.injEq, List.cons.injEq, true_and] at h
            rw [← h.1]
            rfl
          · next hds => rw [if_neg hds]; exact hgo h
      · next hc => rw [if_neg hc]; exact hgo h

theorem stable_json (c : Char) : Stable c fun cs => scanJson (c :: cs) := by
  intro cs r r' kind h _
  have hspan : span [] .outside (c :: cs ++ r) = (.closed, c :: cs, r) := by
    unfold scanJson at h
    simp only at h
    split at h
    · next he =>
      simp only [Scan.mk.injEq] at h
      exact Prod.ext he (Prod.ext h.2.1 h.2.2)
    · cases h
    · cases h
  simp only [← List.cons_append, scanJson, hspan, Scan.mk.injEq, Except.ok.injEq] at h
  simp only [← List.cons_append, scanJson, span_append hspan r', h.1]

theorem stable_param (c : Char) {p : Char → Bool}
    (hp : ∀ {r' r}, Milder r' r → opens p r' = true → opens p r = true) : Stable c (scanParam c p) := by
  intro cs r r' kind h hm
  simp only [scanParam, Scan.mk.injEq, List.cons.injEq, true_and] at h
  obtain ⟨ho, ht, hd⟩ := h
  obtain ⟨hall, hr⟩ := takeWhile_append_iff.mp ⟨ht, hd⟩
  have hr' : opens p r' = false := Bool.eq_false_iff.mpr fun h => Bool.eq_false_iff.mp hr (hp hm h)
  obtain ⟨ht', hd'⟩ := takeWhile_append_iff.mpr ⟨hall, hr'⟩
  rw [ht] at ho
  simp only [scanParam, ht', hd', ho]

theorem stable_mark (c : Char) (m : Mark) : Stable c (Scan.mark m [c]) := by
  intro cs r r' kind h _
  simp only [Scan.mark, Scan.mk.injEq, Except.ok.injEq, List.cons.injEq, true_and] at h
  obtain ⟨rfl, rfl, -⟩ := h
  rfl

theorem stable_longMark (c : Char) (short long : Mark) : Stable c (scanMark short long c) := by
  intro cs r r' kind h hm
  unfold scanMark at h
  split at h
  · next rest hcs =>
    simp only [Scan.mark, Scan.mk.injEq, Except.ok.injEq, List.cons.injEq, true_and] at h
    obtain ⟨rfl, rfl, -⟩ := h
    rfl
  · next hne =>
    simp only [Scan.mark, Scan.mk.injEq, Except.ok.injEq, List.cons.injEq, true_and] at h
    obtain ⟨rfl, rfl, -⟩ := h
    cases r' with
    | nil => rfl
    | cons d r' =>
      -- an equals sign would have stood behind the mark before
      have hd : d ≠ '=' := by
        rintro rfl
        have he := hm.equals rfl
        cases r with
        | nil => cases he
        | cons e r =>
          obtain rfl : e = '=' := beq_iff_eq.mp he
          exact hne _ rfl
      unfold scanMark
      split
      · next heq => exact absurd (List.cons.inj heq).1 hd
      · rfl

theorem stable_name (c : Char) : Stable c fun cs => scanName (c :: cs) := by
  intro cs r r' kind h hm
  simp only [← List.cons_append, scanName, Scan.mk.injEq, Except.ok.injEq] at h
  obtain ⟨ho, ht, hd⟩ := h
  obtain ⟨hall, hr⟩ := takeWhile_append_iff.mp ⟨ht, hd⟩
  have hr' : opens Text.isNamePart r' = false := Bool.eq_false_iff.mpr fun h => Bool.eq_false_iff.mp hr (hm.name h)
  obtain ⟨ht', hd'⟩ := takeWhile_append_iff.mpr ⟨hall, hr'⟩
  rw [ht] at ho
  simp only [← List.cons_append, scanName, ht', hd', ho]

theorem stable_fault (c : Char) (fault : SyntaxFault) : Stable c fun cs => ⟨.error fault, [], c :: cs⟩ := by
  intro cs r r' kind h _
  cases h

/-! ## Numbers -/

theorem numeralPart_whole {ds r : List Char} (hds : ∀ d ∈ ds, d.isDigit = true) (hr : opens Char.isDigit r = false)
    (hf : opensFraction r = false) : numeralPart (ds ++ r) = (ds, r) := by
  obtain ⟨ht, hd⟩ := takeWhile_append_iff.mpr ⟨hds, hr⟩
  simp only [numeralPart, Numeral.splitDigits, ht, hd]
  split
  · next d q =>
    have hdigit : d.isDigit = false := by simpa [opensFraction, opens] using hf
    simp [hdigit]
  · rfl

theorem numeralPart_fraction {ds fs r : List Char} (hds : ∀ d ∈ ds, d.isDigit = true)
    (hfs : ∀ d ∈ fs, d.isDigit = true) (hne : fs ≠ []) (hr : opens Char.isDigit r = false) :
    numeralPart (ds ++ '.' :: fs ++ r) = (ds ++ '.' :: fs, r) := by
  obtain ⟨f, fs, rfl⟩ := List.exists_cons_of_ne_nil hne
  rw [List.append_assoc]
  obtain ⟨ht, hd⟩ := takeWhile_append_iff.mpr ⟨hds, (rfl : opens Char.isDigit ('.' :: (f :: fs ++ r)) = false)⟩
  obtain ⟨ht', hd'⟩ := takeWhile_append_iff.mpr ⟨hfs, hr⟩
  have hf : f.isDigit = true := hfs f List.mem_cons_self
  simp only [List.cons_append] at ht hd ht' hd' ⊢
  simp only [numeralPart, Numeral.splitDigits, ht, hd, hf, if_true, ht', hd']

/-- A number ends before whatever is neither a digit nor, behind a whole number, a
    point with a digit. -/
theorem numeralPart_append_iff {cs r : List Char} : numeralPart (cs ++ r) = (cs, r) ↔
    opens Char.isDigit r = false ∧ ((∀ d ∈ cs, d.isDigit = true) ∧ opensFraction r = false ∨
      ∃ ds fs, cs = ds ++ '.' :: fs ∧ (∀ d ∈ ds, d.isDigit = true) ∧ (∀ d ∈ fs, d.isDigit = true) ∧ fs ≠ []) := by
  constructor
  · intro h
    have hall : ∀ xs : List Char, ∀ d ∈ xs.takeWhile Char.isDigit, d.isDigit = true := fun xs d hd =>
      List.mem_takeWhile_imp hd
    have hopens := opens_dropWhile Char.isDigit (cs ++ r)
    simp only [numeralPart, Numeral.splitDigits] at h
    split at h
    · next d q hdrop =>
      split at h
      · next hd =>
        obtain ⟨hcs, hr⟩ := Prod.mk.inj h
        rw [← hr]
        refine ⟨opens_dropWhile _ _, .inr ⟨_, _, hcs.symm, hall _, hall _, ?_⟩⟩
        simp [hd]
      · next hd =>
        obtain ⟨ht, hr⟩ := Prod.mk.inj h
        rw [hr] at hopens
        refine ⟨hopens, .inl ⟨ht ▸ hall _, ?_⟩⟩
        rw [← hr, hdrop]
        simpa [opensFraction, opens] using hd
    · next hne =>
      obtain ⟨ht, hr⟩ := Prod.mk.inj h
      rw [hr] at hopens
      refine ⟨hopens, .inl ⟨ht ▸ hall _, ?_⟩⟩
      rw [hr] at hne
      cases r with
      | nil => rfl
      | cons c q =>
        cases q with
        | nil => simp [opensFraction, opens]
        | cons d q =>
          have hc : c ≠ '.' := fun hc => hne d q (by rw [hc])
          simp [opensFraction, hc]
  · rintro ⟨hr, ⟨hall, hf⟩ | ⟨ds, fs, rfl, hds, hfs, hne⟩⟩
    · exact numeralPart_whole hall hr hf
    · exact numeralPart_fraction hds hfs hne hr

theorem numeralPart_milder {cs r r' : List Char} (h : numeralPart (cs ++ r) = (cs, r)) (hm : Milder r' r) :
    numeralPart (cs ++ r') = (cs, r') := by
  obtain ⟨hr, h⟩ := numeralPart_append_iff.mp h
  have hr' : opens Char.isDigit r' = false := Bool.eq_false_iff.mpr fun h => Bool.eq_false_iff.mp hr (hm.digit h)
  refine numeralPart_append_iff.mpr ⟨hr', h.imp_left fun ⟨hall, hf⟩ => ⟨hall, ?_⟩⟩
  exact Bool.eq_false_iff.mpr fun h => Bool.eq_false_iff.mp hf (hm.fraction h)

theorem splitMinus_of_ne {c : Char} (hc : c ≠ '-') (cs : List Char) : splitMinus (c :: cs) = ([], c :: cs) := by
  unfold splitMinus
  split
  · next h => exact absurd (List.cons.inj h).1 hc
  · rfl

theorem stable_number (c : Char) : Stable c fun cs => scanNumber (c :: cs) := by
  intro cs r r' kind h hm
  by_cases hc : c = '-'
  · subst hc
    simp only [scanNumber, splitMinus, List.cons_append, List.nil_append, Scan.mk.injEq, List.cons.injEq, true_and] at h
    obtain ⟨ho, ht, hr⟩ := h
    have hpart := numeralPart_milder (Prod.ext ht hr) hm
    rw [ht] at ho
    simp only [scanNumber, splitMinus, hpart, List.cons_append, List.nil_append, ho]
  · simp only [scanNumber, splitMinus_of_ne hc, List.nil_append, Scan.mk.injEq] at h
    obtain ⟨ho, ht, hr⟩ := h
    have hpart : numeralPart (c :: cs ++ r') = (c :: cs, r') := numeralPart_milder (Prod.ext ht hr) hm
    rw [ht] at ho
    rw [List.cons_append] at hpart
    simp only [scanNumber, splitMinus_of_ne hc, hpart, List.nil_append, ho]

theorem scanNumber_minus_taken {d : Char} (hd : d.isDigit = true) (cs : List Char) :
    ∃ ds, (scanNumber ('-' :: d :: cs)).taken = '-' :: d :: ds := by
  simp only [scanNumber, splitMinus, numeralPart, Numeral.splitDigits, List.takeWhile_cons, hd, if_true]
  split
  · split <;> exact ⟨_, rfl⟩
  · exact ⟨_, rfl⟩

/-- A minus belongs to a number only right before a digit, which the number takes. -/
theorem stable_numberOr {c : Char} {g : List Char → Scan} (hg : Stable c g)
    (hminus : c = '-' → ∀ cs kind, (g cs).outcome ≠ .ok kind) :
    Stable c fun cs => if c.isDigit || (c == '-' && startsWithDigit cs) then scanNumber (c :: cs) else g cs := by
  intro cs r r' kind h hm
  by_cases hc : c = '-'
  · subst hc
    simp only [startsWithDigit_eq] at h ⊢
    by_cases hd : opens Char.isDigit (cs ++ r) = true
    · simp only [hd, beq_self_eq_true, Bool.and_self, Bool.or_true, if_true] at h
      cases cs with
      | nil =>
        cases r with
        | nil => cases hd
        | cons d r =>
          obtain ⟨ds, ht⟩ := scanNumber_minus_taken hd r
          rw [List.nil_append] at h
          rw [h] at ht
          cases ht
      | cons d cs =>
        have hd' : opens Char.isDigit (d :: cs ++ r') = true := hd
        simp only [hd', beq_self_eq_true, Bool.and_self, Bool.or_true, if_true]
        exact stable_number '-' h hm
    · have hno : ('-'.isDigit || ('-' == '-' && opens Char.isDigit (cs ++ r))) = false := by
        simp [hd]
      simp only [hno, Bool.false_eq_true, if_false] at h
      exact absurd (congrArg Scan.outcome h) (hminus rfl _ _)
  · have hb : (c == '-') = false := by simpa using hc
    simp only [hb, Bool.false_and, Bool.or_false] at h ⊢
    have hite : Stable c fun cs => if c.isDigit = true then scanNumber (c :: cs) else g cs :=
      stable_ite (stable_number c) hg
    exact hite h hm

theorem scan_stable (c : Char) : Stable c (scan c) := by
  have hmark := stable_mark c
  have hname := stable_param c Milder.name
  have hdigit := stable_param c Milder.digit
  unfold scan
  refine stable_ite (stable_string c) <| stable_ite (stable_json c) <| stable_ite hname <| stable_ite hdigit <|
    stable_numberOr ?_ ?_
  · exact stable_ite (hmark _) <| stable_ite (stable_longMark c _ _) <| stable_ite (stable_longMark c _ _) <|
      stable_ite (hmark _) <| stable_ite (hmark _) <| stable_ite (hmark _) <| stable_ite (hmark _) <|
      stable_ite (hmark _) <| stable_ite (stable_name c) <| stable_ite (stable_fault c _) (stable_fault c _)
  · rintro rfl cs kind
    have hstart : Text.isNameStart '-' = false := by decide
    simp [hstart]

/-! ## Keywords -/

theorem digit_not_nameStart {c : Char} (h : c.isDigit = true) : Text.isNameStart c = false := by
  have hall : ∀ n < 10, Text.isNameStart (Char.ofNat (n + 48)) = false := by decide +kernel
  simp only [Char.isDigit, Bool.and_eq_true, decide_eq_true_eq, UInt32.le_iff_toNat_le, ge_iff_le] at h
  have hlow : 48 ≤ c.toNat := h.1
  have hhigh : c.toNat ≤ 57 := h.2
  have hc := hall (c.toNat - 48) (by omega)
  rwa [Nat.sub_add_cancel hlow, Char.ofNat_toNat] at hc

/-- No other lexeme starts as a name does. -/
theorem scan_of_nameStart {c : Char} (h : Text.isNameStart c = true) (cs : List Char) :
    scan c cs = scanName (c :: cs) := by
  have hothers : ['"', '\'', '\x7b', '[', '@', '?', '-', '=', '>', '<', '*', ',', '(', ')', '.'].all
      (fun d => !Text.isNameStart d) = true := by decide
  have hne : ∀ d ∈ ['"', '\'', '\x7b', '[', '@', '?', '-', '=', '>', '<', '*', ',', '(', ')', '.'], (c == d) = false := by
    intro d hd
    refine beq_eq_false_iff_ne.mpr fun hc => ?_
    have hd' := List.all_eq_true.mp hothers d hd
    rw [← hc, h] at hd'
    cases hd'
  have hdigit : c.isDigit = false := Bool.eq_false_iff.mpr fun hd => by rw [digit_not_nameStart hd] at h; cases h
  simp only [List.mem_cons, List.not_mem_nil, or_false, forall_eq_or_imp, forall_eq] at hne
  simp only [scan, hne, hdigit, h, Bool.or_self, Bool.false_and, Bool.false_eq_true, if_false, if_true]

/-- A scan of anything but a keyword. -/
def Scan.NoKeyword (s : Scan) : Prop := ∀ k, s.outcome ≠ .ok (.keyword k)

/-- Only names are keywords. -/
theorem nameStart_of_keyword {c : Char} {cs : List Char} {k : Keyword} (h : (scan c cs).outcome = .ok (.keyword k)) :
    Text.isNameStart c = true := by
  by_contra hc
  have hstring : (scanString c cs).NoKeyword := by
    intro k
    unfold scanString
    split <;> simp
  have hjson : (scanJson (c :: cs)).NoKeyword := by
    intro k
    unfold scanJson
    simp only
    split <;> simp
  have hparam : ∀ p : Char → Bool, (scanParam c p cs).NoKeyword := by
    intro p k
    simp only [scanParam]
    split <;> simp
  have hnumber : (scanNumber (c :: cs)).NoKeyword := by
    intro k
    rcases scanNumber_cases (c :: cs) with ⟨i, h⟩ | ⟨x, h⟩ | h <;> simp [h]
  have hmark : ∀ m, (Scan.mark m [c] cs).NoKeyword := fun m k => by simp [Scan.mark]
  have hlong : ∀ short long, (scanMark short long c cs).NoKeyword := by
    intro short long k
    unfold scanMark
    split <;> simp [Scan.mark]
  have hfault : ∀ fault, Scan.NoKeyword ⟨.error fault, [], c :: cs⟩ := fun _ k => by simp
  have hscan : (scan c cs).NoKeyword :=
    scan_cases (P := Scan.NoKeyword) c cs hstring hjson (fun _ => hparam _) (fun _ => hparam _) (fun _ => hnumber) hmark hlong
      (fun hname => absurd hname hc) (hfault _) (hfault _)
  exact hscan k h

theorem nameKind_eq_keyword {name : String} {k : Keyword} (h : nameKind name = .keyword k) :
    Keyword.lookup? name = some k := by
  unfold nameKind at h
  cases hl : Keyword.lookup? name with
  | none => rw [hl] at h; cases h
  | some k' =>
    rw [hl] at h
    exact congrArg some (TokenKind.keyword.inj h)

/-! ## Lexemes -/

/-- A lexeme is read off the front of a text and leaves the rest. -/
def Scans (kind : TokenKind) (w r : List Char) : Prop :=
  ∃ c cs, w = c :: cs ∧ Text.isBlank c = false ∧ scan c (cs ++ r) = ⟨.ok kind, w, r⟩

/-- A scan that takes something, if it is of a lexeme. -/
def Scan.Moves (s : Scan) : Prop := ∀ kind, s.outcome = .ok kind → s.taken ≠ []

theorem scanNumber_moves {c : Char} {cs : List Char} (h : (c.isDigit || (c == '-' && startsWithDigit cs)) = true) :
    (scanNumber (c :: cs)).Moves := by
  intro kind _
  by_cases hc : c = '-'
  · subst hc
    exact List.cons_ne_nil _ _
  · have hd : c.isDigit = true := by simpa [hc] using h
    simp only [scanNumber, splitMinus_of_ne hc, numeralPart, Numeral.splitDigits, List.takeWhile_cons, hd, if_true,
      List.nil_append]
    split
    · split <;> exact List.cons_ne_nil _ _
    · exact List.cons_ne_nil _ _

theorem scan_moves (c : Char) (cs : List Char) : (scan c cs).Moves := by
  have hstring : (scanString c cs).Moves := by
    intro kind _
    unfold scanString
    split <;> exact List.cons_ne_nil _ _
  have hjson : (scanJson (c :: cs)).Moves := by
    intro kind _
    have hne := span_taken_ne_nil [] .outside c cs
    unfold scanJson
    simp only
    split <;> exact hne
  have hparam : ∀ p : Char → Bool, (scanParam c p cs).Moves := fun p kind _ => List.cons_ne_nil _ _
  have hmark : ∀ m, (Scan.mark m [c] cs).Moves := fun m kind _ => List.cons_ne_nil _ _
  have hlong : ∀ short long, (scanMark short long c cs).Moves := by
    intro short long kind _
    unfold scanMark
    split <;> exact List.cons_ne_nil _ _
  have hname : Text.isNameStart c = true → (scanName (c :: cs)).Moves := by
    intro hstart kind _
    have hpart : Text.isNamePart c = true := by
      simp only [Text.isNameStart, Text.isNamePart, Bool.or_eq_true] at hstart ⊢
      exact hstart.imp_left .inl
    simp [scanName, hpart]
  have hfault : ∀ fault, Scan.Moves ⟨.error fault, [], c :: cs⟩ := fun _ _ => nofun
  exact scan_cases (P := Scan.Moves) c cs hstring hjson (fun _ => hparam _) (fun _ => hparam _) scanNumber_moves
    hmark hlong hname (hfault _) (hfault _)

namespace Scans

variable {kind : TokenKind} {k : Keyword} {w w' r r' : List Char}

theorem of_scan {c : Char} (hc : Text.isBlank c = false) (ho : (scan c r).outcome = .ok kind) :
    Scans kind (scan c r).taken (scan c r).rest := by
  obtain ⟨d, ds, hd⟩ := List.exists_cons_of_ne_nil (scan_moves c r kind ho)
  have htaken := scan_taken c r
  rw [hd] at htaken
  obtain ⟨rfl, hr⟩ : d = c ∧ ds ++ (scan c r).rest = r := List.cons.inj htaken
  exact ⟨d, ds, hd, hc, by rw [hr, ← ho]⟩

theorem of_milder (h : Scans kind w r) (hm : Milder r' r) : Scans kind w r' := by
  obtain ⟨c, cs, rfl, hc, hs⟩ := h
  exact ⟨c, cs, rfl, hc, scan_stable c hs hm⟩

theorem recased (h : Scans (.keyword k) w r) (hw : Recased w' w) (hm : Milder r' r) : Scans (.keyword k) w' r' := by
  obtain ⟨c, cs, rfl, -, hs⟩ := h.of_milder hm
  have hstart : Text.isNameStart c = true := nameStart_of_keyword (congrArg Scan.outcome hs)
  rw [scan_of_nameStart hstart, ← List.cons_append] at hs
  simp only [scanName, Scan.mk.injEq, Except.ok.injEq] at hs
  obtain ⟨hkind, ht, hd⟩ := hs
  rw [ht] at hkind
  obtain ⟨hall, hr⟩ := takeWhile_append_iff.mp ⟨ht, hd⟩
  cases w' with
  | nil => cases hw
  | cons c' cs' =>
    have hstart' : Text.isNameStart c' = true := by
      rw [(class_of_toLower_eq (recased_cons.mp hw).1).2.1]
      exact hstart
    have hall' : ∀ d ∈ c' :: cs', Text.isNamePart d = true := by
      intro d hd
      obtain ⟨e, he, hlower⟩ := hw.exists_mem hd
      rw [(class_of_toLower_eq hlower).1]
      exact hall e he
    obtain ⟨ht', hd'⟩ := takeWhile_append_iff.mpr ⟨hall', hr⟩
    refine ⟨c', cs', rfl, ?_, ?_⟩
    · exact Bool.eq_false_iff.mpr fun hb => by
        have hpart := hall' c' List.mem_cons_self
        rw [(class_of_isBlank hb).1] at hpart
        cases hpart
    · rw [scan_of_nameStart hstart', ← List.cons_append]
      simp only [scanName, ht', hd', nameKind, lookup?_recased hw, nameKind_eq_keyword hkind, Option.elim]

end Scans

end EntityQuery.Token
