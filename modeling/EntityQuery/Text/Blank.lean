/-
  EntityQuery.Text.Blank — white space as Unicode's White_Space property has it:
  25 characters, in ten ranges. Query texts, typed values and binding names are
  all trimmed of the same set.

  Main facts: every blank of core's class is one (`isBlank_of_isWhitespace`), and
  trimming leaves no blank at the front (`isBlank_head_trimStart`).
-/

namespace EntityQuery.Text

/-- The ranges of White_Space, in order, both ends included. -/
def blankRanges : List (Nat × Nat) :=
  [(0x09, 0x0D), (0x20, 0x20), (0x85, 0x85), (0xA0, 0xA0), (0x1680, 0x1680),
   (0x2000, 0x200A), (0x2028, 0x2029), (0x202F, 0x202F), (0x205F, 0x205F), (0x3000, 0x3000)]

/-- Whether a code point lies in one of the ranges. -/
def inRanges (ranges : List (Nat × Nat)) (code : Nat) : Bool :=
  ranges.any fun (lo, hi) => lo ≤ code && code ≤ hi

def isBlank (c : Char) : Bool := inRanges blankRanges c.toNat

def trimStart (cs : List Char) : List Char := cs.dropWhile isBlank

def trimEnd (cs : List Char) : List Char := (cs.reverse.dropWhile isBlank).reverse

def trim (cs : List Char) : List Char := trimEnd (trimStart cs)

theorem isBlank_of_isWhitespace (c : Char) (h : c.isWhitespace = true) : isBlank c = true := by
  simp only [Char.isWhitespace, Bool.or_eq_true, decide_eq_true_eq] at h
  rcases h with ((rfl | rfl) | rfl) | rfl <;> decide

theorem isBlank_head_trimStart (c : Char) (cs r : List Char) (h : trimStart cs = c :: r) : isBlank c = false := by
  induction cs with
  | nil => cases h
  | cons d ds ih =>
    by_cases hd : isBlank d = true
    · exact ih (by simpa [trimStart, List.dropWhile, hd] using h)
    · simp only [trimStart, List.dropWhile, hd] at h
      simp only [List.cons.injEq] at h
      simpa [h.1] using hd

end EntityQuery.Text
