/-
  EntityQuery.Proofs.Globs — which texts a `like` pattern matches.

  (1) Reading. A pattern covers a text when each of its characters takes its part, one
  after the other: a percent sign any run of wild characters, an underscore one of them,
  and any other character itself (`Like.Covers`). Where every character is wild, that is
  how patterns are described (`Like.Glob`).

  (2) Matching. The table of suffixes for a longer text extends that for a shorter one
  (`Like.suffixes_cons`). So what it says of the whole text follows the pattern piece by
  piece, and a text matches exactly when the pattern covers it by characters other than
  the line feed (`Like.isMatch_iff_covers`).

  (3) Line feeds. No wildcard stands for a line feed exactly when the text has as many of
  them as the pattern (`Like.covers_iff_count`).
-/

import EntityQuery.Proofs.Matching

namespace EntityQuery.Like

variable {wild : Char → Prop} {c d : Char} {ps cs : List Char}

/-! ## (1) Reading -/

/-- A pattern takes a text apart, its wildcards standing for wild characters alone. -/
inductive Covers (wild : Char → Prop) : List Char → List Char → Prop
  | nil : Covers wild [] []
  | run {ps cs : List Char} (taken : List Char) : (∀ c ∈ taken, wild c) → Covers wild ps cs →
      Covers wild ('%' :: ps) (taken ++ cs)
  | one {c : Char} {ps cs : List Char} : wild c → Covers wild ps cs → Covers wild ('_' :: ps) (c :: cs)
  | char {c : Char} {ps cs : List Char} : c ≠ '%' → c ≠ '_' → Covers wild ps cs → Covers wild (c :: ps) (c :: cs)

/-- The whole text is read by the pattern, in which a percent sign stands for any run of
    characters, an underscore for any one character, and each other character for itself. -/
def Glob (pattern text : String) : Prop := Covers (fun _ => True) pattern.toList text.toList

theorem covers_nil_iff : Covers wild [] cs ↔ cs = [] := by
  constructor
  · intro h
    cases h
    rfl
  · rintro rfl
    exact .nil

theorem not_covers_one_nil : ¬ Covers wild ('_' :: ps) [] := by
  intro h
  cases h

theorem covers_one_cons : Covers wild ('_' :: ps) (c :: cs) ↔ wild c ∧ Covers wild ps cs := by
  constructor
  · intro h
    cases h with
    | one hc h => exact ⟨hc, h⟩
    | char _ hone => exact absurd rfl hone
  · rintro ⟨hc, h⟩
    exact .one hc h

/-- A run is empty, or it takes the first character and goes on. -/
theorem covers_run_nil : Covers wild ('%' :: ps) [] ↔ Covers wild ps [] := by
  constructor
  · intro h
    generalize hcs : ([] : List Char) = cs at h
    cases h with
    | run taken _ h =>
      obtain ⟨rfl, rfl⟩ := List.append_eq_nil_iff.mp hcs.symm
      exact h
    | char => cases hcs
  · exact .run [] (List.forall_mem_nil _)

theorem covers_run_cons :
    Covers wild ('%' :: ps) (c :: cs) ↔ Covers wild ps (c :: cs) ∨ wild c ∧ Covers wild ('%' :: ps) cs := by
  constructor
  · intro h
    generalize htext : c :: cs = text at h
    cases h with
    | run taken hwild h =>
      cases taken with
      | nil =>
        obtain rfl : c :: cs = _ := htext
        exact .inl h
      | cons d taken =>
        obtain ⟨rfl, rfl⟩ := List.cons.inj htext
        obtain ⟨hc, hrest⟩ := List.forall_mem_cons.mp hwild
        exact .inr ⟨hc, .run taken hrest h⟩
    | char hrun => exact absurd rfl hrun
  · rintro (h | ⟨hc, h⟩)
    · exact .run [] (List.forall_mem_nil _) h
    · generalize hp : '%' :: ps = p at h
      cases h with
      | run taken hwild h =>
        obtain ⟨-, rfl⟩ := List.cons.inj hp
        exact .run (c :: taken) (List.forall_mem_cons.mpr ⟨hc, hwild⟩) h
      | one => cases hp
      | char hrun => exact absurd (List.cons.inj hp).1.symm hrun
      | nil => cases hp

section Char

variable (hrun : d ≠ '%') (hone : d ≠ '_')

include hrun

theorem not_covers_char_nil : ¬ Covers wild (d :: ps) [] := by
  intro h
  generalize hcs : ([] : List Char) = cs at h
  cases h with
  | run => exact hrun rfl
  | one => cases hcs
  | char => cases hcs

include hone

theorem covers_char_cons : Covers wild (d :: ps) (c :: cs) ↔ c = d ∧ Covers wild ps cs := by
  constructor
  · intro h
    generalize htext : c :: cs = text at h
    cases h with
    | run => exact absurd rfl hrun
    | one => exact absurd rfl hone
    | char _ _ h =>
      obtain ⟨rfl, rfl⟩ := List.cons.inj htext
      exact ⟨rfl, h⟩
  · rintro ⟨rfl, h⟩
    exact .char hrun hone h

end Char

/-! ## (2) Matching -/

/-- What the table for a text says of the whole of it. -/
def matched (pieces : List LikePiece) (text : List Char) : Bool := (suffixes text pieces).headD false

theorem suffixes_cons (c : Char) (cs : List Char) (pieces : List LikePiece) :
    suffixes (c :: cs) pieces = matched pieces (c :: cs) :: suffixes cs pieces := by
  obtain ⟨here, h⟩ : ∃ here, suffixes (c :: cs) pieces = here :: suffixes cs pieces := by
    induction pieces with
    | nil => exact ⟨false, rfl⟩
    | cons p pieces ih =>
      obtain ⟨here, h⟩ := ih
      cases p <;> exact ⟨_, by rw [suffixes, h]; rfl⟩
  rw [matched, h]
  rfl

section Matched

variable {pieces : List LikePiece}

theorem matched_char_cons : matched (.char d :: pieces) (c :: cs) = (c == d && matched pieces cs) := by
  rw [matched, suffixes, suffixes_cons]
  rfl

theorem matched_one_cons : matched (.one :: pieces) (c :: cs) = (isWild c && matched pieces cs) := by
  rw [matched, suffixes, suffixes_cons]
  rfl

theorem matched_run_cons :
    matched (.run :: pieces) (c :: cs) = (matched pieces (c :: cs) || isWild c && matched (.run :: pieces) cs) := by
  rw [matched, suffixes, suffixes_cons]
  rfl

end Matched

theorem matched_iff_covers (pattern text : List Char) :
    matched (pattern.map .ofChar) text = true ↔ Covers (isWild · = true) pattern text := by
  induction pattern generalizing text with
  | nil =>
    rw [covers_nil_iff]
    cases text with
    | nil => simp [matched, suffixes]
    | cons c cs => simp [matched, suffixes]
  | cons p pattern ih =>
    rw [List.map_cons]
    by_cases hrun : p = '%'
    · -- a run is taken character by character
      subst hrun
      induction text with
      | nil => exact (ih []).trans covers_run_nil.symm
      | cons c cs ihtext =>
        have hpiece : LikePiece.ofChar '%' = .run := rfl
        rw [hpiece] at ihtext ⊢
        rw [matched_run_cons, covers_run_cons, Bool.or_eq_true, Bool.and_eq_true, ih, ihtext]
    by_cases hone : p = '_'
    · subst hone
      have hpiece : LikePiece.ofChar '_' = .one := rfl
      rw [hpiece]
      cases text with
      | nil => exact iff_of_false (by simp [matched, suffixes, advance]) not_covers_one_nil
      | cons c cs => rw [matched_one_cons, covers_one_cons, Bool.and_eq_true, ih]
    · have hpiece : LikePiece.ofChar p = .char p := by simp [LikePiece.ofChar, hrun, hone]
      rw [hpiece]
      cases text with
      | nil => exact iff_of_false (by simp [matched, suffixes, advance]) (not_covers_char_nil hrun)
      | cons c cs => rw [matched_char_cons, covers_char_cons hrun hone, Bool.and_eq_true, beq_iff_eq, ih]

theorem isMatch_iff_covers (pattern text : String) :
    (ofText pattern).isMatch text = true ↔ Covers (isWild · = true) pattern.toList text.toList :=
  matched_iff_covers pattern.toList text.toList

/-! ## (3) Line feeds -/

/-- The line feeds of the pattern stand for as many in the text. -/
theorem Covers.count_le (h : Covers wild ps cs) : ps.count '\n' ≤ cs.count '\n' := by
  induction h with
  | nil => exact Nat.le_refl _
  | run taken _ _ ih =>
    rw [List.count_append, List.count_cons_of_ne (by decide)]
    omega
  | one _ _ ih =>
    rw [List.count_cons_of_ne (by decide), List.count_cons]
    omega
  | char _ _ _ ih =>
    rw [List.count_cons, List.count_cons]
    omega

theorem count_eq_zero_iff_wild : cs.count '\n' = 0 ↔ ∀ c ∈ cs, isWild c = true := by
  rw [List.count_eq_zero]
  constructor
  · intro h c hc
    exact bne_iff_ne.mpr fun heq => h (heq ▸ hc)
  · intro h hmem
    exact absurd (h _ hmem) (by decide)

theorem covers_iff_count :
    Covers (isWild · = true) ps cs ↔ Covers (fun _ => True) ps cs ∧ cs.count '\n' = ps.count '\n' := by
  constructor
  · intro h
    induction h with
    | nil => exact ⟨.nil, rfl⟩
    | run taken hwild _ ih =>
      refine ⟨.run taken (fun _ _ => trivial) ih.1, ?_⟩
      rw [List.count_append, count_eq_zero_iff_wild.mpr hwild, List.count_cons_of_ne (by decide), ih.2, Nat.zero_add]
    | one hc _ ih =>
      refine ⟨.one trivial ih.1, ?_⟩
      rw [List.count_cons_of_ne (bne_iff_ne.mp hc), List.count_cons_of_ne (by decide), ih.2]
    | char hrun hone _ ih =>
      refine ⟨.char hrun hone ih.1, ?_⟩
      rw [List.count_cons, List.count_cons, ih.2]
  · rintro ⟨h, hcount⟩
    induction h with
    | nil => exact .nil
    | run taken _ h ih =>
      -- what follows has its own line feeds, so the run has none
      have hle := h.count_le
      rw [List.count_append, List.count_cons_of_ne (by decide)] at hcount
      exact .run taken (count_eq_zero_iff_wild.mp (by omega)) (ih (by omega))
    | @one c ps cs _ h ih =>
      have hle := h.count_le
      rw [List.count_cons_of_ne (by decide : '_' ≠ '\n')] at hcount
      by_cases hc : c = '\n'
      · rw [hc, List.count_cons_self] at hcount
        omega
      · rw [List.count_cons_of_ne hc] at hcount
        exact .one (bne_iff_ne.mpr hc) (ih hcount)
    | char hrun hone _ ih =>
      rw [List.count_cons, List.count_cons] at hcount
      exact .char hrun hone (ih (by omega))

/-- A compiled pattern matches the texts that it reads as a whole, as long as no wildcard
    of it stands for a line feed: those with no more of them than the pattern itself. -/
theorem isMatch_iff_glob {pattern : String} {like : Like} (h : compile pattern = .ok like) (text : String) :
    like.isMatch text = true ↔
      Glob pattern text ∧ text.toList.count '\n' = pattern.toList.count '\n' := by
  obtain ⟨-, rfl⟩ := compile_eq_ok.mp h
  rw [isMatch_iff_covers, covers_iff_count]
  rfl

/-- Characters that mean something in other pattern languages stand for themselves here, and
    a line feed of the pattern for one of the text. -/
theorem isMatch_iff_glob_lines :
    let like : Like := .ofText "_.%\n[x]%"
    compile "_.%\n[x]%" = .ok like ∧ like.isMatch "a.b\n[x]" = true ∧ Glob "_.%\n[x]%" "a.b\n[x]" ∧
      like.isMatch "abb\n[x]" = false ∧ ¬ Glob "_.%\n[x]%" "abb\n[x]" := by
  intro like
  have hsize : like.size ≤ sizeLimit := by decide +kernel
  have hcompile : compile "_.%\n[x]%" = .ok like := compile_eq_ok.mpr ⟨hsize, rfl⟩
  have hyes : like.isMatch "a.b\n[x]" = true := by decide +kernel
  have hno : like.isMatch "abb\n[x]" = false := by decide +kernel
  refine ⟨hcompile, hyes, ((isMatch_iff_glob hcompile _).mp hyes).1, hno, fun hglob => ?_⟩
  have hmatch := (isMatch_iff_glob hcompile "abb\n[x]").mpr ⟨hglob, by decide +kernel⟩
  rw [hno] at hmatch
  cases hmatch

/-- A percent sign does not stand for a run with a line feed in it. -/
theorem run_stops_at_line_feed :
    ∃ like, compile "Ad%" = .ok like ∧ Glob "Ad%" "Ada\nLovelace" ∧ like.isMatch "Ada\nLovelace" = false := by
  have hsize : (ofText "Ad%").size ≤ sizeLimit := by decide +kernel
  refine ⟨.ofText "Ad%", compile_eq_ok.mpr ⟨hsize, rfl⟩, ?_, by decide +kernel⟩
  refine .char (by decide) (by decide) (.char (by decide) (by decide) ?_)
  exact .run "a\nLovelace".toList (fun _ _ => trivial) .nil

end EntityQuery.Like
