/-
  EntityQuery.Proofs.Matching — what it is for an entity to satisfy a condition.

  `Condition.holds` reads a condition as it stands, with no table of patterns beside it.
  A filter compiles the patterns first, and fails when one of them is too large
  (`Filter.compile_eq_ok`); once compiled it holds of an entity exactly when the
  condition does (`Filter.isMatch_eq_holds`), since the table has every pattern that the
  condition can ask for.
-/

import EntityQuery.Proofs.Resolution
import EntityQuery.Storage.Filter

namespace EntityQuery

/-! ## Conditions as they stand -/

/-- Whether a field's value stands in a relation to an operand. -/
def Comparison.holds : Comparison → Value → Value → Bool
  | .equals, a, b => a.looseEq b
  | .greater, a, b => a.compare? b == some .gt
  | .lesser, a, b => a.compare? b == some .lt
  | .greaterEquals, a, b => a.compare? b == some .gt || a.compare? b == some .eq
  | .lesserEquals, a, b => a.compare? b == some .lt || a.compare? b == some .eq
  | .like, .string text, .string pattern => (Like.ofText pattern).isMatch text
  | .like, _, _ => false
  | .isIn, a, .array items => items.any (a.looseEq ·)
  | .isIn, a, b => a.looseEq b

namespace Condition

mutual

def holds (e : Entity) : Condition Value → Bool
  | .compare field op v => op.holds (e.read field) v
  | .between field low high =>
    Comparison.holds .greaterEquals (e.read field) low && Comparison.holds .lesserEquals (e.read field) high
  | .all items => allHold e items
  | .any items => anyHolds e items
  | .not c => !holds e c

def allHold (e : Entity) : List (Condition Value) → Bool
  | [] => true
  | c :: cs => holds e c && allHold e cs

def anyHolds (e : Entity) : List (Condition Value) → Bool
  | [] => false
  | c :: cs => holds e c || anyHolds e cs

end

/-- A condition that is left out holds of every entity. -/
def admits (c : Option (Condition Value)) (e : Entity) : Bool := c.elim true (holds e)

end Condition

/-! ## Compiled conditions -/

/-- A pattern that can be compiled. -/
def Like.Fits (pattern : String) : Prop := (Like.ofText pattern).size ≤ Like.sizeLimit

theorem Like.compile_eq_ok {pattern : String} {like : Like} :
    Like.compile pattern = .ok like ↔ Like.Fits pattern ∧ like = .ofText pattern := by
  unfold Like.compile Like.Fits
  split
  · next h => simp [h, eq_comm]
  · next h => simp [h]

namespace Filter

/-- The table of some patterns. -/
def table (patterns : List String) : List (String × Like) := patterns.map fun p => (p, .ofText p)

theorem lookup_table {p : String} {patterns : List String} (h : p ∈ patterns) :
    (table patterns).lookup p = some (.ofText p) := by
  induction patterns with
  | nil => cases h
  | cons q patterns ih =>
    show List.lookup p ((q, Like.ofText q) :: table patterns) = _
    rw [List.lookup_cons]
    by_cases hq : p = q
    · simp [hq]
    · have hne : (p == q) = false := beq_false_of_ne hq
      rw [hne]
      exact ih ((List.mem_cons.mp h).resolve_left hq)

theorem compileAll_eq_ok {patterns : List String} {compiled : List (String × Like)} :
    compileAll patterns = .ok compiled ↔ (∀ p ∈ patterns, Like.Fits p) ∧ compiled = table patterns := by
  induction patterns generalizing compiled with
  | nil => simp [compileAll, table, eq_comm]
  | cons p patterns ih =>
    rw [compileAll, List.forall_mem_cons]
    constructor
    · intro h
      obtain ⟨like, hlike, h⟩ := except_bind_eq_ok.mp h
      obtain ⟨hfits, rfl⟩ := Like.compile_eq_ok.mp hlike
      cases hrest : compileAll patterns with
      | error e => rw [hrest] at h; cases h
      | ok rest =>
        rw [hrest] at h
        obtain ⟨hall, rfl⟩ := ih.mp hrest
        exact ⟨⟨hfits, hall⟩, (Except.ok.inj h).symm⟩
    · intro ⟨⟨hfits, hall⟩, h⟩
      rw [Like.compile_eq_ok.mpr ⟨hfits, rfl⟩, ih.mpr ⟨hall, rfl⟩, h]
      rfl

theorem compile_eq_ok {c : Condition Value} {f : Filter} :
    compile c = .ok f ↔ (∀ p ∈ c.likePatterns, Like.Fits p) ∧ f = ⟨c, table (Query.distinct c.likePatterns)⟩ := by
  have hall : (∀ p ∈ Query.distinct c.likePatterns, Like.Fits p) ↔ ∀ p ∈ c.likePatterns, Like.Fits p :=
    forall_congr' fun p => by rw [Query.mem_distinct]
  rw [compile, ← hall]
  cases h : compileAll (Query.distinct c.likePatterns) with
  | error e =>
    constructor
    · intro hf
      cases hf
    · intro ⟨hfits, _⟩
      rw [compileAll_eq_ok.mpr ⟨hfits, rfl⟩] at h
      cases h
  | ok compiled =>
    obtain ⟨hfits, rfl⟩ := compileAll_eq_ok.mp h
    constructor
    · intro hf
      exact ⟨hfits, (Except.ok.inj hf).symm⟩
    · intro ⟨_, hf⟩
      exact congrArg Except.ok hf.symm

section Test

variable {patterns : List (String × Like)} (e : Entity)

theorem testComparison_eq_holds (op : Comparison) (actual v : Value)
    (h : ∀ p ∈ Condition.pattern? op v, patterns.lookup p = some (.ofText p)) :
    testComparison patterns op actual v = op.holds actual v := by
  cases op with
  | like =>
    cases v with
    | string pattern =>
      cases actual with
      | string text => simp [testComparison, testLike, Comparison.holds, h pattern rfl]
      | _ => rfl
    | _ => cases actual <;> rfl
  | isIn => cases v <;> rfl
  | _ => rfl

mutual

theorem test_eq_holds (c : Condition Value) (h : ∀ p ∈ c.likePatterns, patterns.lookup p = some (.ofText p)) :
    test patterns e c = c.holds e := by
  match c with
  | .compare field op v =>
    exact testComparison_eq_holds op _ v fun p hp => h p (Option.mem_toList.mpr hp)
  | .between .. => rfl
  | .all cs => exact testAll_eq_allHold cs h
  | .any cs => exact testAny_eq_anyHolds cs h
  | .not c => exact congrArg not (test_eq_holds c h)

theorem testAll_eq_allHold (cs : List (Condition Value))
    (h : ∀ p ∈ Condition.itemPatterns cs, patterns.lookup p = some (.ofText p)) :
    testAll patterns e cs = Condition.allHold e cs := by
  match cs with
  | [] => rfl
  | c :: cs =>
    obtain ⟨hc, hcs⟩ := List.forall_mem_append.mp h
    rw [testAll, Condition.allHold, test_eq_holds c hc, testAll_eq_allHold cs hcs]

theorem testAny_eq_anyHolds (cs : List (Condition Value))
    (h : ∀ p ∈ Condition.itemPatterns cs, patterns.lookup p = some (.ofText p)) :
    testAny patterns e cs = Condition.anyHolds e cs := by
  match cs with
  | [] => rfl
  | c :: cs =>
    obtain ⟨hc, hcs⟩ := List.forall_mem_append.mp h
    rw [testAny, Condition.anyHolds, test_eq_holds c hc, testAny_eq_anyHolds cs hcs]

end

end Test

/-- A compiled condition holds of an entity exactly when the condition does. -/
theorem isMatch_eq_holds {c : Condition Value} {f : Filter} (h : compile c = .ok f) (e : Entity) :
    f.isMatch e = c.holds e := by
  obtain ⟨-, rfl⟩ := compile_eq_ok.mp h
  exact test_eq_holds e c fun p hp => lookup_table (Query.mem_distinct.mpr hp)

/-- What an optional condition keeps is what it admits, if all its patterns fit. -/
theorem keeping_eq_ok {c : Option (Condition Value)} {keep : Entity → Bool} : keeping c = .ok keep ↔
    (∀ p ∈ c.elim [] Condition.likePatterns, Like.Fits p) ∧ keep = Condition.admits c := by
  cases c with
  | none =>
    constructor
    · intro h
      exact ⟨nofun, (Except.ok.inj h).symm⟩
    · intro ⟨_, h⟩
      exact congrArg Except.ok h.symm
  | some c =>
    have hadmits : ∀ f, compile c = .ok f → f.isMatch = Condition.admits (some c) :=
      fun f hf => funext (isMatch_eq_holds hf)
    constructor
    · intro h
      cases hf : compile c with
      | error e => rw [keeping, hf] at h; cases h
      | ok f =>
        rw [keeping, hf] at h
        exact ⟨(compile_eq_ok.mp hf).1, (Except.ok.inj h).symm.trans (hadmits f hf)⟩
    · intro ⟨hfits, h⟩
      have hf := compile_eq_ok.mpr ⟨hfits, rfl⟩
      rw [keeping, hf, h, ← hadmits _ hf]
      rfl

/-- What depends on what an optional condition keeps is made from what it admits. -/
theorem map_keeping_eq_ok {α : Type} {c : Option (Condition Value)} {f : (Entity → Bool) → α} {a : α} :
    (keeping c).map f = .ok a ↔ (∀ p ∈ c.elim [] Condition.likePatterns, Like.Fits p) ∧ a = f (Condition.admits c) := by
  constructor
  · intro h
    cases hk : keeping c with
    | error e => rw [hk] at h; cases h
    | ok keep =>
      rw [hk] at h
      obtain ⟨hfits, rfl⟩ := keeping_eq_ok.mp hk
      exact ⟨hfits, (Except.ok.inj h).symm⟩
  · intro ⟨hfits, h⟩
    rw [keeping_eq_ok.mpr ⟨hfits, rfl⟩, h]
    rfl

end Filter

end EntityQuery
