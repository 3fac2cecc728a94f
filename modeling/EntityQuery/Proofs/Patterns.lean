/-
  EntityQuery.Proofs.Patterns — conditions with their patterns compiled once, against
  conditions that compile a pattern wherever it stands.

  (1) Answers that depend on patterns. They are given if all of them can be compiled, and
  else there is the one error (`Like.checked`); a table of patterns is such an answer.

  (2) Leaves. The patterns of a condition are those of its leaves, at any depth
  (`Condition.mem_likePatterns`).

  (3) Evaluation. `Condition.evaluate` goes down a condition with no table beside it, and
  compiles a pattern at each leaf that has one. Compiling first and testing then comes to
  the same for every entity, and the table has each pattern of a leaf once
  (`Filter.compiled_once`).
-/

import EntityQuery.Proofs.Matching
import EntityQuery.Proofs.Truth
import Mathlib.Data.Set.Card

namespace EntityQuery

/-! ## (1) Answers that depend on patterns -/

namespace Like

variable {α β γ : Type}

instance (pattern : String) : Decidable (Fits pattern) := inferInstanceAs (Decidable (_ ≤ _))

/-- What is answered once some patterns are compiled. -/
def checked (patterns : List String) (a : α) : Except QueryError α :=
  if ∀ p ∈ patterns, Fits p then .ok a else .error (.query (.patternTooLarge sizeLimit))

theorem compile_eq (p : String) : compile p = checked [p] (ofText p) := by
  simp only [checked, List.forall_mem_singleton]
  rfl

theorem checked_map (patterns : List String) (a : α) (f : α → β) :
    (checked patterns a).map f = checked patterns (f a) := by
  unfold checked
  split <;> rfl

/-- Patterns that are compiled one after the other are compiled together. -/
theorem checked_append (ps qs : List String) (a : α) (b : β) (f : α → β → γ) :
    ((checked ps a).bind fun x => (checked qs b).map (f x)) = checked (ps ++ qs) (f a b) := by
  unfold checked
  by_cases hp : ∀ p ∈ ps, Fits p
  · rw [if_pos hp]
    by_cases hq : ∀ q ∈ qs, Fits q
    · rw [if_pos hq, if_pos (List.forall_mem_append.mpr ⟨hp, hq⟩)]
      rfl
    · rw [if_neg hq, if_neg fun h => hq (List.forall_mem_append.mp h).2]
      rfl
  · rw [if_neg hp, if_neg fun h => hp (List.forall_mem_append.mp h).1]
    rfl

theorem checked_congr {ps qs : List String} (h : ∀ p, p ∈ ps ↔ p ∈ qs) (a : α) : checked ps a = checked qs a := by
  simp only [checked, h]

theorem checked_eq_error (patterns : List String) (a : α) :
    (∃ err, checked patterns a = .error err) ↔ ∃ p ∈ patterns, ∃ err, compile p = .error err := by
  have hone : ∀ p, (∃ err, compile p = .error err) ↔ ¬ Fits p := by
    intro p
    unfold compile Fits
    split <;> simp [*]
  simp only [hone]
  unfold checked
  split <;> simp_all

end Like

theorem Filter.compileAll_eq (patterns : List String) : compileAll patterns = Like.checked patterns (table patterns) := by
  induction patterns with
  | nil => rfl
  | cons p patterns ih =>
    rw [compileAll, ih, Like.compile_eq]
    exact Like.checked_append [p] patterns _ _ fun like rest => (p, like) :: rest

theorem Filter.compile_eq (c : Condition Value) :
    compile c = Like.checked c.likePatterns ⟨c, table (Query.distinct c.likePatterns)⟩ := by
  rw [compile, compileAll_eq, Like.checked_map]
  -- Repetitions are dropped before compiling, but whether all patterns fit is the same.
  exact Like.checked_congr (fun p => Query.mem_distinct) _

/-! ## (2) Leaves -/

namespace Condition

/-- A text is the pattern of a leaf. -/
def HasPattern (c : Condition Value) (pattern : String) : Prop :=
  ∃ field, .compare field .like (.string pattern) ∈ c.leaves

theorem pattern?_eq_some {field : String} {op : Comparison} {v : Value} {pattern : String} :
    pattern? op v = some pattern ↔ (compare field op v).HasPattern pattern := by
  constructor
  · intro h
    unfold pattern? at h
    split at h
    · obtain rfl := Option.some.inj h
      exact ⟨field, List.mem_cons_self⟩
    · cases h
  · intro ⟨other, h⟩
    cases List.mem_singleton.mp h
    rfl

mutual

theorem mem_likePatterns {pattern : String} (c : Condition Value) : pattern ∈ c.likePatterns ↔ c.HasPattern pattern := by
  match c with
  | .compare field op v => exact Option.mem_toList.trans pattern?_eq_some
  | .between .. => simp [likePatterns, HasPattern, leaves]
  | .all cs => exact mem_itemPatterns cs
  | .any cs => exact mem_itemPatterns cs
  | .not c => exact mem_likePatterns c

theorem mem_itemPatterns {pattern : String} (cs : List (Condition Value)) :
    pattern ∈ itemPatterns cs ↔ ∃ field, .compare field .like (.string pattern) ∈ itemLeaves cs := by
  match cs with
  | [] => simp [itemPatterns, itemLeaves]
  | c :: cs =>
    rw [itemPatterns, List.mem_append, mem_likePatterns c, mem_itemPatterns cs]
    simp [HasPattern, itemLeaves, exists_or]

end

end Condition

/-! ## (3) Evaluation -/

/-- Whether a field's value stands in a relation to an operand, a pattern being compiled
    for the occasion. -/
def Comparison.weigh (op : Comparison) (actual expected : Value) : Except QueryError Bool :=
  match op, expected with
  | .like, .string pattern =>
    (Like.compile pattern).map fun like => match actual with
      | .string text => like.isMatch text
      | _ => false
  | _, _ => .ok (op.holds actual expected)

namespace Condition

mutual

/-- Whether an entity satisfies a condition, from the leaves up. A field that is missing
    reads as null. -/
def evaluate (e : Entity) : Condition Value → Except QueryError Bool
  | .compare field op v => op.weigh ((e.get? field).getD .null) v
  | .between field low high => do
    let above ← Comparison.weigh .greaterEquals ((e.get? field).getD .null) low
    let below ← Comparison.weigh .lesserEquals ((e.get? field).getD .null) high
    pure (above && below)
  | .all items => evaluateAll e items
  | .any items => evaluateAny e items
  | .not c => do pure !(← evaluate e c)

def evaluateAll (e : Entity) : List (Condition Value) → Except QueryError Bool
  | [] => pure true
  | c :: cs => do
    let first ← evaluate e c
    let rest ← evaluateAll e cs
    pure (first && rest)

def evaluateAny (e : Entity) : List (Condition Value) → Except QueryError Bool
  | [] => pure false
  | c :: cs => do
    let first ← evaluate e c
    let rest ← evaluateAny e cs
    pure (first || rest)

end

end Condition

theorem Comparison.weigh_eq (op : Comparison) (actual expected : Value) :
    op.weigh actual expected = Like.checked (Condition.pattern? op expected).toList (op.holds actual expected) := by
  cases op with
  | like =>
    cases expected with
    | string pattern =>
      show (Like.compile pattern).map _ = Like.checked [pattern] _
      rw [Like.compile_eq, Like.checked_map]
      cases actual <;> rfl
    | _ => rfl
  | _ => rfl

namespace Condition

mutual

theorem evaluate_eq (e : Entity) (c : Condition Value) : c.evaluate e = Like.checked c.likePatterns (c.holds e) := by
  match c with
  | .compare field op v => exact op.weigh_eq _ v
  | .between field low high => rfl
  | .all cs => exact evaluateAll_eq e cs
  | .any cs => exact evaluateAny_eq e cs
  | .not c =>
    have h := Like.checked_map c.likePatterns (c.holds e) (!·)
    rw [← evaluate_eq e c] at h
    exact h

theorem evaluateAll_eq (e : Entity) (cs : List (Condition Value)) :
    evaluateAll e cs = Like.checked (itemPatterns cs) (allHold e cs) := by
  match cs with
  | [] => rfl
  | c :: cs =>
    rw [itemPatterns, allHold, ← Like.checked_append, ← evaluate_eq e c, ← evaluateAll_eq e cs]
    rfl

theorem evaluateAny_eq (e : Entity) (cs : List (Condition Value)) :
    evaluateAny e cs = Like.checked (itemPatterns cs) (anyHolds e cs) := by
  match cs with
  | [] => rfl
  | c :: cs =>
    rw [itemPatterns, anyHolds, ← Like.checked_append, ← evaluate_eq e c, ← evaluateAny_eq e cs]
    rfl

end

end Condition

namespace Filter

theorem length_patterns (c : Condition Value) :
    (table (Query.distinct c.likePatterns)).length = {p | c.HasPattern p}.ncard := by
  have hset : {p | c.HasPattern p} = ((Query.distinct c.likePatterns).toFinset : Set String) := by
    ext p
    simp [Query.mem_distinct, Condition.mem_likePatterns]
  rw [hset, Set.ncard_coe_finset, List.toFinset_card_of_nodup (Query.nodup_distinct _), table, List.length_map]

/-- Compiling the patterns of a condition and testing an entity is evaluating the
    condition leaf by leaf, whether it succeeds or fails. A compiled condition finds the
    pattern of every leaf, and has as many as there are different ones; compiling fails
    exactly if that of some leaf does. -/
theorem compiled_once (c : Condition Value) :
    (∀ e, (compile c).map (·.isMatch e) = c.evaluate e) ∧
    (∀ f, compile c = .ok f →
      (∀ e, c.evaluate e = .ok (f.isMatch e)) ∧
      (∀ p, c.HasPattern p → ∃ like, Like.compile p = .ok like ∧ f.patterns.lookup p = some like) ∧
      f.patterns.length = {p | c.HasPattern p}.ncard) ∧
    ((∃ err, compile c = .error err) ↔ ∃ p, c.HasPattern p ∧ ∃ err, Like.compile p = .error err) := by
  have heq : ∀ e, (compile c).map (·.isMatch e) = c.evaluate e := by
    intro e
    rw [compile_eq, Like.checked_map, Condition.evaluate_eq]
    unfold Like.checked
    split
    · next hfits => exact congrArg Except.ok (isMatch_eq_holds (compile_eq_ok.mpr ⟨hfits, rfl⟩) e)
    · rfl
  refine ⟨heq, fun f hf => ?_, ?_⟩
  · obtain ⟨hfits, rfl⟩ := compile_eq_ok.mp hf
    refine ⟨fun e => ?_, fun p hp => ?_, length_patterns c⟩
    · rw [← heq e, hf]
      rfl
    · have hmem := (Condition.mem_likePatterns c).mpr hp
      exact ⟨.ofText p, Like.compile_eq_ok.mpr ⟨hfits p hmem, rfl⟩, lookup_table (Query.mem_distinct.mpr hmem)⟩
  · rw [compile_eq, Like.checked_eq_error]
    simp only [Condition.mem_likePatterns]

/-- One pattern twice under a disjunction, and another one below a negation. -/
def startsWithA : Condition Value :=
  .all [.any [.compare "name" .like (.string "A%"), .compare "city" .like (.string "A%")],
    .not (.compare "name" .like (.string "_d_"))]

theorem compiled_once_startsWithA :
    ∃ f, compile startsWithA = .ok f ∧ f.patterns.length = 2 ∧ {p | startsWithA.HasPattern p}.ncard = 2 ∧
      startsWithA.HasPattern "_d_" ∧ (∃ like, f.patterns.lookup "_d_" = some like) ∧
      startsWithA.evaluate ⟨"Person", [("name", .string "Anna")]⟩ = .ok true ∧
      startsWithA.evaluate ⟨"Person", [("name", .string "Ada")]⟩ = .ok false := by
  let f : Filter := ⟨startsWithA, table ["A%", "_d_"]⟩
  have hpatterns : Query.distinct startsWithA.likePatterns = ["A%", "_d_"] := by decide
  have hf : compile startsWithA = .ok f := compile_eq_ok.mpr ⟨by decide, by rw [hpatterns]⟩
  obtain ⟨-, hcompiled, -⟩ := compiled_once startsWithA
  obtain ⟨heval, hlookup, hlength⟩ := hcompiled f hf
  have hleaf : startsWithA.HasPattern "_d_" := ⟨"name", by simp [startsWithA, Condition.leaves, Condition.itemLeaves]⟩
  obtain ⟨like, -, hlike⟩ := hlookup "_d_" hleaf
  exact ⟨f, hf, rfl, hlength.symm, hleaf, ⟨like, hlike⟩, heval _, heval _⟩

end Filter

end EntityQuery
