/-
  EntityQuery.Proofs.Naming.CamelParts — a name is cut into its parts before exactly the
  capitals that start one (`splitCamel_exact`).

  (1) Starts. Parts start at places of the text that they make up (`starts`). Parts with
  something in them are known by this text and these places (`eq_of_starts`), so no other
  parts of a name have its cuts.

  (2) Cuts. Whether a part starts at a place hangs on three characters, the one at the
  place and its two neighbours (`CutBefore`). One turn settles the place right behind a
  character (`exists_cutBefore_cons`), a run every place behind it, whatever part is held
  (`mem_starts_splitAfter`).
-/

import EntityQuery.Proofs.Naming.NativePaths

namespace EntityQuery.Naming

/-! ## (1) Starts -/

section Starts

variable {α : Type} {part other : List α} {parts others : List (List α)}

/-- The places at which parts start in the text that they make up. -/
def starts : List (List α) → List Nat
  | [] => []
  | part :: parts => 0 :: (starts parts).map (part.length + ·)

theorem mem_starts_cons {i : Nat} :
    i ∈ starts (part :: parts) ↔ i = 0 ∨ ∃ j ∈ starts parts, part.length + j = i := by
  rw [starts, List.mem_cons, List.mem_map]

theorem add_mem_starts (part : List α) {i : Nat} (hi : 0 < i) :
    part.length + i ∈ starts (part :: parts) ↔ i ∈ starts parts := by
  rw [mem_starts_cons]
  constructor
  · rintro (hzero | ⟨j, hj, hsum⟩)
    · omega
    · rwa [← Nat.add_left_cancel hsum]
  · exact fun h => .inr ⟨i, h, rfl⟩

/-- Where a part ends, the text ends or another part starts. So if other parts of the text
    start wherever these do, the first of them is no longer than the first of these. -/
theorem length_first_le (hpart : part ≠ []) (hwhole : (part :: parts).flatten = (other :: others).flatten)
    (hstarts : ∀ i, 0 < i → i ∈ starts (part :: parts) → i ∈ starts (other :: others)) :
    other.length ≤ part.length := by
  cases parts with
  | nil =>
    have hlength := congrArg List.length hwhole
    simp only [List.flatten_cons, List.flatten_nil, List.append_nil, List.length_append] at hlength
    omega
  | cons next parts =>
    have hpos : 0 < part.length := List.length_pos_iff.mpr hpart
    have hend : part.length ∈ starts (part :: next :: parts) := mem_starts_cons.mpr (.inr ⟨0, List.mem_cons_self, rfl⟩)
    obtain hzero | ⟨j, -, hsum⟩ := mem_starts_cons.mp (hstarts _ hpos hend)
    · omega
    · omega

/-- Parts with something in them are known by their text and the places at which they start. -/
theorem eq_of_starts (hparts : ∀ part ∈ parts, part ≠ []) (hothers : ∀ part ∈ others, part ≠ [])
    (hwhole : parts.flatten = others.flatten) (hstarts : ∀ i, 0 < i → (i ∈ starts parts ↔ i ∈ starts others)) :
    parts = others := by
  induction parts generalizing others with
  | nil =>
    cases others with
    | nil => rfl
    | cons other others =>
      exact absurd (List.append_eq_nil_iff.mp hwhole.symm).1 (hothers other List.mem_cons_self)
  | cons part parts ih =>
    obtain ⟨hpart, hbehind⟩ := List.forall_mem_cons.mp hparts
    cases others with
    | nil => exact absurd (List.append_eq_nil_iff.mp hwhole).1 hpart
    | cons other others =>
      obtain ⟨hother, hbehind'⟩ := List.forall_mem_cons.mp hothers
      have hlength : part.length = other.length :=
        Nat.le_antisymm (length_first_le hother hwhole.symm fun i hi => (hstarts i hi).mpr)
          (length_first_le hpart hwhole fun i hi => (hstarts i hi).mp)
      obtain ⟨rfl, hrest⟩ := List.append_inj hwhole hlength
      have htail : ∀ i, 0 < i → (i ∈ starts parts ↔ i ∈ starts others) := by
        intro i hi
        rw [← add_mem_starts part hi, hstarts _ (by omega), add_mem_starts part hi]
      rw [ih hbehind hbehind' hrest htail]

end Starts

/-! ## (2) Cuts -/

/-- The capitals of ASCII. -/
def Capital (c : Char) : Prop := 'A' ≤ c ∧ c ≤ 'Z'

/-- The small letters of ASCII. -/
def Small (c : Char) : Prop := 'a' ≤ c ∧ c ≤ 'z'

theorem isUpper_iff {c : Char} : c.isUpper = true ↔ Capital c := decide_eq_true_iff

theorem isLower_iff {c : Char} : c.isLower = true ↔ Small c :=
  Bool.and_eq_true_iff.trans (and_congr decide_eq_true_iff decide_eq_true_iff)

instance : DecidablePred Capital := fun _ => decidable_of_iff _ isUpper_iff

instance : DecidablePred Small := fun _ => decidable_of_iff _ isLower_iff

/-- A character of some kind stands at a place. -/
def StandsAt (P : Char → Prop) (name : List Char) (i : Nat) : Prop := ∃ c ∈ name[i]?, P c

instance (P : Char → Prop) [DecidablePred P] (name : List Char) : DecidablePred (StandsAt P name) :=
  fun i => Option.decidableExistsMem name[i]?

/-- At a place behind the first stands a capital, and in front of it a small letter, or a
    capital if a small letter comes next. -/
def CutBefore (name : List Char) (i : Nat) : Prop :=
  StandsAt Capital name i ∧
    (StandsAt Small name (i - 1) ∨ StandsAt Capital name (i - 1) ∧ StandsAt Small name (i + 1))

instance (name : List Char) : DecidablePred (CutBefore name) := fun _ => inferInstanceAs (Decidable (_ ∧ (_ ∨ _ ∧ _)))

theorem not_cutBefore_of_le {name : List Char} {i : Nat} (h : name.length ≤ i) : ¬ CutBefore name i := by
  rintro ⟨⟨c, hc, -⟩, -⟩
  rw [List.getElem?_eq_none h] at hc
  cases hc

theorem cutBefore_one {before c : Char} {cs : List Char} :
    CutBefore (before :: c :: cs) 1 ↔ isBoundary before c cs.head? = true := by
  have hafter : (∃ after ∈ cs.head?, Small after) ↔ cs.head?.any Char.isLower = true := by
    simp only [Option.any_eq_true, isLower_iff]
    rfl
  rw [isBoundary, Bool.and_eq_true, Bool.or_eq_true, Bool.and_eq_true, isUpper_iff, isLower_iff, isUpper_iff, ← hafter,
    List.head?_eq_getElem?]
  simp [CutBefore, StandsAt]

theorem cutBefore_cons {before : Char} {name : List Char} {i : Nat} :
    CutBefore (before :: name) (i + 2) ↔ CutBefore name (i + 1) :=
  Iff.rfl

/-- One turn: a cut right behind a character, or one behind the next. -/
theorem exists_cutBefore_cons {before c : Char} {cs : List Char} {P : Nat → Prop} :
    (∃ j, CutBefore (before :: c :: cs) (j + 1) ∧ P j) ↔
      isBoundary before c cs.head? = true ∧ P 0 ∨ ∃ j, CutBefore (c :: cs) (j + 1) ∧ P (j + 1) := by
  rw [← Nat.or_exists_add_one, cutBefore_one]
  simp only [Nat.add_assoc, cutBefore_cons]

/-- Whatever part is held, the parts behind it start at the cuts behind the character that
    was seen last. -/
theorem mem_starts_splitAfter {before : Char} {held cs : List Char} {i : Nat} :
    i ∈ starts (splitAfter before held cs) ↔
      i = 0 ∨ ∃ j, CutBefore (before :: cs) (j + 1) ∧ held.length + j = i := by
  induction cs generalizing before held i with
  | nil =>
    have hnone : ∀ j, ¬ CutBefore [before] (j + 1) := fun j => not_cutBefore_of_le (Nat.le_add_left 1 j)
    simp [splitAfter, starts, hnone]
  | cons c cs ih =>
    rw [exists_cutBefore_cons]
    unfold splitAfter
    split
    · next hcut =>
      -- The part that is held ends here, and the next one holds the character alone.
      have hnext : ∀ j, j ∈ starts (splitAfter c [c] cs) ↔ j = 0 ∨ ∃ k, CutBefore (c :: cs) (k + 1) ∧ k + 1 = j := by
        intro j
        rw [ih]
        simp only [List.length_singleton, Nat.add_comm 1]
      rw [mem_starts_cons, List.length_reverse]
      simp only [hnext, hcut, true_and, or_and_right, exists_or, exists_eq_left, exists_exists_and_eq_and]
    · next hcut =>
      rw [ih]
      have hheld : ∀ j, (c :: held).length + j = held.length + (j + 1) := by
        intro j
        rw [List.length_cons, Nat.add_right_comm, Nat.add_assoc]
      simp only [hcut, Bool.false_eq_true, false_and, false_or, hheld]

/-- The parts of a name have something in them and make up the name, and one starts at a
    place behind the first character if and only if a capital of ASCII stands there that
    comes after a small letter, or after a capital and before a small letter. No other parts
    do that. A split that asks for the characters by their places, and ends a part only
    where it has something in it, finds them too. -/
theorem splitCamel_exact (name : List Char) :
    (∀ part ∈ splitCamel name, part ≠ []) ∧ (splitCamel name).flatten = name ∧
    (∀ i, 0 < i → (i ∈ starts (splitCamel name) ↔ CutBefore name i)) ∧
    (∀ parts, (∀ part ∈ parts, part ≠ []) → parts.flatten = name →
      (∀ i, 0 < i → (i ∈ starts parts ↔ CutBefore name i)) → parts = splitCamel name) ∧
    Indexed.split name = .ok (splitCamel name) := by
  have hparts : ∀ part ∈ splitCamel name, part ≠ [] := fun _ => part_ne_nil
  have hwhole : (splitCamel name).flatten = name := flatten_splitCamel name
  have hcuts : ∀ i, 0 < i → (i ∈ starts (splitCamel name) ↔ CutBefore name i) := by
    intro i hi
    cases name with
    | nil => exact iff_of_false (List.not_mem_nil) (not_cutBefore_of_le (Nat.zero_le i))
    | cons c cs =>
      obtain ⟨k, rfl⟩ : ∃ k, i = k + 1 := ⟨i - 1, by omega⟩
      rw [splitCamel, mem_starts_splitAfter]
      simp [Nat.add_comm 1]
  refine ⟨hparts, hwhole, hcuts, fun parts hne hflat hstarts => ?_, Indexed.split_eq name⟩
  exact eq_of_starts hne hparts (hflat.trans hwhole.symm) fun i hi => (hstarts i hi).trans (hcuts i hi).symm

/-- No cut next to letters beyond ASCII, behind a digit, or in a run of capitals at the end. -/
theorem splitCamel_exact_edges :
    let name := "élanÉtat2URLsID".toList
    let parts := ["élanÉtat2UR".toList, "Ls".toList, "ID".toList]
    (∀ part ∈ parts, part ≠ []) ∧ parts.flatten = name ∧
      (∀ i, 0 < i → (i ∈ starts parts ↔ CutBefore name i)) ∧ parts = splitCamel name ∧
      "Ls".toList ∈ splitCamel name ∧ "Ls".toList ≠ [] ∧
      11 ∈ starts (splitCamel name) ∧ 13 ∈ starts (splitCamel name) ∧
      4 ∉ starts (splitCamel name) ∧ 9 ∉ starts (splitCamel name) ∧ 14 ∉ starts (splitCamel name) := by
  intro name parts
  obtain ⟨hne, -, hcuts, hunique, -⟩ := splitCamel_exact name
  have hstarts : ∀ i, 0 < i → (i ∈ starts parts ↔ CutBefore name i) := by
    intro i hi
    have hinside : ∀ i < 15, 0 < i → (i ∈ starts parts ↔ CutBefore name i) := by decide
    by_cases hlength : i < 15
    · exact hinside i hlength hi
    · have hplaces : ∀ j ∈ starts parts, j < 15 := by decide
      exact iff_of_false (fun h => hlength (hplaces i h)) (not_cutBefore_of_le (Nat.le_of_not_lt hlength))
  have hparts : parts = splitCamel name := hunique parts (by decide) (by decide) hstarts
  have hmem : "Ls".toList ∈ splitCamel name := by decide
  exact ⟨by decide, by decide, hstarts, hparts, hmem, hne _ hmem, (hcuts 11 (by decide)).mpr (by decide),
    (hcuts 13 (by decide)).mpr (by decide), fun h => absurd ((hcuts 4 (by decide)).mp h) (by decide),
    fun h => absurd ((hcuts 9 (by decide)).mp h) (by decide), fun h => absurd ((hcuts 14 (by decide)).mp h) (by decide)⟩

end EntityQuery.Naming
