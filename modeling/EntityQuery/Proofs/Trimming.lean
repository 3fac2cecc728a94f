/-
  EntityQuery.Proofs.Trimming — what trimming takes off a text, and what it leaves.

  Only blanks are taken off (`exists_surrounding`), and they are taken off up to the
  first character at either end that is none (`trim_surrounded`). So nothing is taken off
  a text whose ends are no blanks (`trim_of_ends`).
-/

import Mathlib.Data.List.Basic
import Mathlib.Data.List.TakeWhile
import EntityQuery.Text.Blank

namespace EntityQuery.Text

theorem not_blank_of_isDigit {c : Char} (h : c.isDigit = true) : isBlank c = false := by
  have hrange : 48 ≤ c.toNat ∧ c.toNat ≤ 57 := by
    simpa [Char.isDigit, UInt32.le_iff_toNat_le] using h
  have hblank : ∀ r ∈ blankRanges, r.2 < 48 ∨ 57 < r.1 := by decide
  refine List.any_eq_false.mpr fun r hr hin => ?_
  have hbetween : r.1 ≤ c.toNat ∧ c.toNat ≤ r.2 := by simpa using hin
  rcases hblank r hr with hbelow | habove <;> omega

theorem trimStart_of_not_blank {c : Char} (h : isBlank c = false) (cs : List Char) : trimStart (c :: cs) = c :: cs := by
  simp [trimStart, h]

/-- A text of nothing but blanks. -/
def AllBlank (cs : List Char) : Prop := ∀ c ∈ cs, isBlank c = true

theorem dropWhile_blank {front rest : List Char} (hfront : AllBlank front)
    (hrest : ∀ c ∈ rest.head?, isBlank c = false) : (front ++ rest).dropWhile isBlank = rest := by
  rw [List.dropWhile_append_of_pos hfront]
  cases rest with
  | nil => rfl
  | cons c cs => exact trimStart_of_not_blank (hrest c rfl) cs

section Ends

variable {body : List Char} (hfirst : ∀ c ∈ body.head?, isBlank c = false) (hlast : ∀ c ∈ body.getLast?, isBlank c = false)

include hfirst hlast

/-- A text with no blank at its ends is left when the blanks around it are trimmed off. -/
theorem trim_surrounded {front back : List Char} (hfront : AllBlank front) (hback : AllBlank back) :
    trim (front ++ (body ++ back)) = body := by
  rw [trim, trimEnd, trimStart]
  by_cases hempty : body = []
  · subst hempty
    have hall : AllBlank (front ++ back) := by
      intro c hc
      exact (List.mem_append.mp hc).elim (hfront c) (hback c)
    rw [List.nil_append, List.dropWhile_eq_nil_iff.mpr hall]
    rfl
  · have hstart : ∀ c ∈ (body ++ back).head?, isBlank c = false := by
      rw [List.head?_append_of_ne_nil body hempty]
      exact hfirst
    have hend : ∀ c ∈ body.reverse.head?, isBlank c = false := by
      rw [List.head?_reverse]
      exact hlast
    have hback' : AllBlank back.reverse := fun c hc => hback c (List.mem_reverse.mp hc)
    rw [dropWhile_blank hfront hstart, List.reverse_append, dropWhile_blank hback' hend, List.reverse_reverse]

theorem trim_of_ends : trim body = body := by
  have hnone : AllBlank [] := fun _ hc => absurd hc List.not_mem_nil
  have htrim := trim_surrounded hfirst hlast hnone hnone
  rwa [List.nil_append, List.append_nil] at htrim

end Ends

/-- Nothing is trimmed off a text without blanks. -/
theorem trim_of_not_blank {cs : List Char} (h : ∀ c ∈ cs, isBlank c = false) : trim cs = cs :=
  trim_of_ends (fun c hc => h c (List.mem_of_mem_head? hc)) (fun c hc => h c (List.mem_of_mem_getLast? hc))

/-- What is trimmed off is blanks. -/
theorem exists_surrounding (cs : List Char) :
    ∃ front back, cs = front ++ (trim cs ++ back) ∧ AllBlank front ∧ AllBlank back := by
  have hstart : cs.takeWhile isBlank ++ trimStart cs = cs := List.takeWhile_append_dropWhile
  have hend : trim cs ++ ((trimStart cs).reverse.takeWhile isBlank).reverse = trimStart cs := by
    rw [trim, trimEnd, ← List.reverse_append, List.takeWhile_append_dropWhile, List.reverse_reverse]
  refine ⟨cs.takeWhile isBlank, ((trimStart cs).reverse.takeWhile isBlank).reverse, ?_, ?_, ?_⟩
  · rw [hend, hstart]
  · exact fun c hc => List.mem_takeWhile_imp hc
  · exact fun c hc => List.mem_takeWhile_imp (List.mem_reverse.mp hc)

end EntityQuery.Text
