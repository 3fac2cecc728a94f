/-
  EntityQuery.Proofs.Truth — conditions as truth functions of their comparisons.

  The comparisons of a condition are its leaves, from left to right, and a condition
  has a truth value for any verdicts on them (`truth`). Joining two conditions keeps
  the leaves in order and is `&&` or `||` on truth values, also where the left one is
  a chain that takes the right one in (`truth_and`, `truth_or`). Testing an entity is
  the truth value for the tests of the leaves (`test_eq_truth`), and replacing names
  and operands changes neither the leaves' number nor any truth value
  (`truth_of_shape`).
-/

import EntityQuery.Proofs.Substitution
import EntityQuery.Storage.Filter

namespace EntityQuery

/-- A verdict on each leaf, by its place from left to right. -/
abbrev Verdicts := Nat → Bool

/-- The verdicts on what comes behind so many leaves. -/
def Verdicts.after (v : Verdicts) (n : Nat) : Verdicts := fun i => v (n + i)

namespace Verdicts

@[simp] theorem after_zero (v : Verdicts) : v.after 0 = v := by
  funext i
  simp [after]

@[simp] theorem after_after (v : Verdicts) (n m : Nat) : (v.after n).after m = v.after (n + m) := by
  funext i
  simp [after, Nat.add_assoc]

end Verdicts

namespace Condition

variable {V W : Type}

mutual

def leaves : Condition V → List (Condition V)
  | .compare field op v => [.compare field op v]
  | .between field low high => [.between field low high]
  | .all items => itemLeaves items
  | .any items => itemLeaves items
  | .not c => leaves c

def itemLeaves : List (Condition V) → List (Condition V)
  | [] => []
  | c :: cs => leaves c ++ itemLeaves cs

end

mutual

def truth (v : Verdicts) : Condition V → Bool
  | .compare .. => v 0
  | .between .. => v 0
  | .all items => truthAll v items
  | .any items => truthAny v items
  | .not c => !truth v c

def truthAll (v : Verdicts) : List (Condition V) → Bool
  | [] => true
  | c :: cs => truth v c && truthAll (v.after c.leaves.length) cs

def truthAny (v : Verdicts) : List (Condition V) → Bool
  | [] => false
  | c :: cs => truth v c || truthAny (v.after c.leaves.length) cs

end

/-! ## Joining -/

theorem itemLeaves_append (cs ds : List (Condition V)) : itemLeaves (cs ++ ds) = itemLeaves cs ++ itemLeaves ds := by
  induction cs with
  | nil => rfl
  | cons c cs ih => simp [itemLeaves, ih]

theorem itemValues_append (cs ds : List (Condition V)) : itemValues (cs ++ ds) = itemValues cs ++ itemValues ds := by
  induction cs with
  | nil => rfl
  | cons c cs ih => simp [itemValues, ih]

theorem truthAll_append (v : Verdicts) (cs ds : List (Condition V)) :
    truthAll v (cs ++ ds) = (truthAll v cs && truthAll (v.after (itemLeaves cs).length) ds) := by
  induction cs generalizing v with
  | nil => simp [truthAll, itemLeaves]
  | cons c cs ih => simp [truthAll, itemLeaves, ih, Bool.and_assoc]

theorem truthAny_append (v : Verdicts) (cs ds : List (Condition V)) :
    truthAny v (cs ++ ds) = (truthAny v cs || truthAny (v.after (itemLeaves cs).length) ds) := by
  induction cs generalizing v with
  | nil => simp [truthAny, itemLeaves]
  | cons c cs ih => simp [truthAny, itemLeaves, ih, Bool.or_assoc]

/-- A conjunction on the left takes the right condition in as its last item; any other
    condition becomes the first of two. -/
theorem and_cases (l r : Condition V) :
    (∃ items, l = .all items ∧ l.and r = .all (items ++ [r])) ∨ l.and r = .all [l, r] := by
  cases l with
  | all items => exact .inl ⟨items, rfl, rfl⟩
  | _ => exact .inr rfl

theorem or_cases (l r : Condition V) :
    (∃ items, l = .any items ∧ l.or r = .any (items ++ [r])) ∨ l.or r = .any [l, r] := by
  cases l with
  | any items => exact .inl ⟨items, rfl, rfl⟩
  | _ => exact .inr rfl

@[simp] theorem leaves_and (l r : Condition V) : (l.and r).leaves = l.leaves ++ r.leaves := by
  rcases and_cases l r with ⟨items, rfl, h⟩ | h
  · simp [h, leaves, itemLeaves, itemLeaves_append]
  · simp [h, leaves, itemLeaves]

@[simp] theorem leaves_or (l r : Condition V) : (l.or r).leaves = l.leaves ++ r.leaves := by
  rcases or_cases l r with ⟨items, rfl, h⟩ | h
  · simp [h, leaves, itemLeaves, itemLeaves_append]
  · simp [h, leaves, itemLeaves]

theorem values_and (l r : Condition V) : (l.and r).values = l.values ++ r.values := by
  rcases and_cases l r with ⟨items, rfl, h⟩ | h
  · simp [h, values, itemValues, itemValues_append]
  · simp [h, values, itemValues]

theorem values_or (l r : Condition V) : (l.or r).values = l.values ++ r.values := by
  rcases or_cases l r with ⟨items, rfl, h⟩ | h
  · simp [h, values, itemValues, itemValues_append]
  · simp [h, values, itemValues]

theorem truth_and (v : Verdicts) (l r : Condition V) :
    (l.and r).truth v = (l.truth v && r.truth (v.after l.leaves.length)) := by
  rcases and_cases l r with ⟨items, rfl, h⟩ | h
  · simp [h, truth, truthAll, truthAll_append, leaves]
  · simp [h, truth, truthAll]

theorem truth_or (v : Verdicts) (l r : Condition V) :
    (l.or r).truth v = (l.truth v || r.truth (v.after l.leaves.length)) := by
  rcases or_cases l r with ⟨items, rfl, h⟩ | h
  · simp [h, truth, truthAny, truthAny_append, leaves]
  · simp [h, truth, truthAny]

/-! ## Replacing names and operands -/

section Map

variable (field : String → String) (f : V → W)

mutual

theorem leaves_map (c : Condition V) : (c.map field f).leaves = c.leaves.map (·.map field f) := by
  match c with
  | .compare .. => simp [map, leaves]
  | .between .. => simp [map, leaves]
  | .all cs => simpa [map, leaves] using itemLeaves_map cs
  | .any cs => simpa [map, leaves] using itemLeaves_map cs
  | .not c => simpa [map, leaves] using leaves_map c

theorem itemLeaves_map (cs : List (Condition V)) :
    itemLeaves (mapItems field f cs) = (itemLeaves cs).map (·.map field f) := by
  match cs with
  | [] => rfl
  | c :: cs => simp [mapItems, itemLeaves, leaves_map c, itemLeaves_map cs]

end

mutual

theorem truth_map (v : Verdicts) (c : Condition V) : (c.map field f).truth v = c.truth v := by
  match c with
  | .compare .. => rfl
  | .between .. => rfl
  | .all cs => simpa [map, truth] using truthAll_map v cs
  | .any cs => simpa [map, truth] using truthAny_map v cs
  | .not c => simpa [map, truth] using truth_map v c

theorem truthAll_map (v : Verdicts) (cs : List (Condition V)) : truthAll v (mapItems field f cs) = truthAll v cs := by
  match cs with
  | [] => rfl
  | c :: cs => simp [mapItems, truthAll, truth_map v c, truthAll_map _ cs, leaves_map]

theorem truthAny_map (v : Verdicts) (cs : List (Condition V)) : truthAny v (mapItems field f cs) = truthAny v cs := by
  match cs with
  | [] => rfl
  | c :: cs => simp [mapItems, truthAny, truth_map v c, truthAny_map _ cs, leaves_map]

end

end Map

theorem truth_of_shape {c : Condition V} {d : Condition W} (field : String → String)
    (h : d.shape = c.map field fun _ => ()) (v : Verdicts) : d.truth v = c.truth v := by
  rw [← truth_map id (fun _ => ()) v d, ← truth_map field (fun _ => ()) v c]
  exact congrArg (truth v) h

theorem shape_substitute {ε : Type} {field : String → String} {value : V → Except ε W} {c : Condition V}
    {d : Condition W} (h : c.substitute field value = .ok d) : d.shape = c.map field fun _ => () := by
  have hp := substitute_parts field value c
  rw [h] at hp
  cases hw : Query.substituteAll value c.values with
  | error e => rw [hw] at hp; cases hp
  | ok ws =>
    rw [hw] at hp
    exact (Prod.mk.inj (Except.ok.inj hp)).1

end Condition

/-! ## Testing an entity -/

namespace Filter

variable (patterns : List (String × Like)) (e : Entity)

/-- The tests of leaves, each on its own. -/
def verdicts (leaves : List (Condition Value)) : Verdicts := fun i =>
  (leaves[i]?).elim false (test patterns e)

theorem verdicts_append (ls rs : List (Condition Value)) :
    (verdicts patterns e (ls ++ rs)).after ls.length = verdicts patterns e rs := by
  funext i
  have h : (ls ++ rs)[ls.length + i]? = rs[i]? := by
    rw [List.getElem?_append_right (by omega)]
    congr 1
    omega
  simp only [Verdicts.after, verdicts, h]

mutual

theorem test_eq_truth_append (c : Condition Value) (rest : List (Condition Value)) :
    test patterns e c = c.truth (verdicts patterns e (c.leaves ++ rest)) := by
  match c with
  | .compare .. => rfl
  | .between .. => rfl
  | .all cs => simpa [test, Condition.truth, Condition.leaves] using testAll_eq_truth_append cs rest
  | .any cs => simpa [test, Condition.truth, Condition.leaves] using testAny_eq_truth_append cs rest
  | .not c => simpa [test, Condition.truth, Condition.leaves] using test_eq_truth_append c rest

theorem testAll_eq_truth_append (cs rest : List (Condition Value)) :
    testAll patterns e cs = Condition.truthAll (verdicts patterns e (Condition.itemLeaves cs ++ rest)) cs := by
  match cs with
  | [] => rfl
  | c :: cs =>
    have hc := test_eq_truth_append c (Condition.itemLeaves cs ++ rest)
    have hcs := testAll_eq_truth_append cs rest
    rw [testAll, Condition.truthAll, Condition.itemLeaves, List.append_assoc, verdicts_append, ← hc, ← hcs]

theorem testAny_eq_truth_append (cs rest : List (Condition Value)) :
    testAny patterns e cs = Condition.truthAny (verdicts patterns e (Condition.itemLeaves cs ++ rest)) cs := by
  match cs with
  | [] => rfl
  | c :: cs =>
    have hc := test_eq_truth_append c (Condition.itemLeaves cs ++ rest)
    have hcs := testAny_eq_truth_append cs rest
    rw [testAny, Condition.truthAny, Condition.itemLeaves, List.append_assoc, verdicts_append, ← hc, ← hcs]

end

/-- An entity passes a condition exactly when the condition is true for the tests of
    its leaves. -/
theorem test_eq_truth (c : Condition Value) : test patterns e c = c.truth (verdicts patterns e c.leaves) := by
  have h := test_eq_truth_append patterns e c []
  rwa [List.append_nil] at h

theorem testAll_append (cs ds : List (Condition Value)) :
    testAll patterns e (cs ++ ds) = (testAll patterns e cs && testAll patterns e ds) := by
  induction cs with
  | nil => rfl
  | cons c cs ih => simp [testAll, ih, Bool.and_assoc]

theorem testAny_append (cs ds : List (Condition Value)) :
    testAny patterns e (cs ++ ds) = (testAny patterns e cs || testAny patterns e ds) := by
  induction cs with
  | nil => rfl
  | cons c cs ih => simp [testAny, ih, Bool.or_assoc]

theorem test_and (l r : Condition Value) : test patterns e (l.and r) = (test patterns e l && test patterns e r) := by
  rcases Condition.and_cases l r with ⟨items, rfl, h⟩ | h
  · simp [h, test, testAll, testAll_append]
  · simp [h, test, testAll]

theorem test_or (l r : Condition Value) : test patterns e (l.or r) = (test patterns e l || test patterns e r) := by
  rcases Condition.or_cases l r with ⟨items, rfl, h⟩ | h
  · simp [h, test, testAny, testAny_append]
  · simp [h, test, testAny]

end Filter

end EntityQuery
