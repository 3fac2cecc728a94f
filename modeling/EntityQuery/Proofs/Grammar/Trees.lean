/-
  EntityQuery.Proofs.Grammar.Trees — the trees that conditions are.

  (1) Chains. A condition is flat when each conjunction and each disjunction in it, at
  any depth, has two items or more and starts with none of its own kind
  (`Condition.Flat`). Joining flat conditions gives a flat one (`Flat.join`).

  (2) Height. Joining conditions one after the other gives a chain that is at most one
  level higher than any of them, also where the first takes the others in
  (`joined_height_le`). So a negation or a pair of brackets is worth two levels at most,
  and as they lie only so deep, the height of a condition is bounded however long its text
  is (`ConditionPhrase.height_le`).

  (3) Resolution. Both are read off a condition with its names and operands replaced by
  any others, so resolving it changes neither.
-/

import EntityQuery.Proofs.Grammar.Precedence
import EntityQuery.Proofs.Grammar.Text
import EntityQuery.Proofs.Resolution

namespace EntityQuery

/-! ## (1) Chains -/

inductive Connective where
  | and
  | or

namespace Connective

variable {V : Type}

/-- The condition that is a chain of some others. -/
def chain : Connective → List (Condition V) → Condition V
  | and => .all
  | or => .any

def join : Connective → Condition V → Condition V → Condition V
  | and => .and
  | or => .or

/-- A chain of the kind on the left takes the right condition in as its last item; any
    other condition becomes the first of two. -/
theorem join_cases (k : Connective) (l r : Condition V) :
    (∃ items, l = k.chain items ∧ k.join l r = k.chain (items ++ [r])) ∨
      (∀ items, l ≠ k.chain items) ∧ k.join l r = k.chain [l, r] := by
  cases k with
  | and =>
    cases l with
    | all items => exact .inl ⟨items, rfl, rfl⟩
    | _ => exact .inr ⟨nofun, rfl⟩
  | or =>
    cases l with
    | any items => exact .inl ⟨items, rfl, rfl⟩
    | _ => exact .inr ⟨nofun, rfl⟩

end Connective

namespace Condition

variable {V W : Type}

mutual

/-- A condition and all conditions inside it. -/
def nodes : Condition V → List (Condition V)
  | .compare field op v => [.compare field op v]
  | .between field low high => [.between field low high]
  | .all items => .all items :: itemNodes items
  | .any items => .any items :: itemNodes items
  | .not c => .not c :: nodes c

def itemNodes : List (Condition V) → List (Condition V)
  | [] => []
  | c :: cs => nodes c ++ itemNodes cs

end

/-- A condition that is a chain has two items or more, of which the first is no chain of
    the same kind. -/
def Chained (c : Condition V) : Prop :=
  ∀ (k : Connective) (items : List (Condition V)), c = k.chain items →
    2 ≤ items.length ∧ ∀ first ∈ items.head?, ∀ inner, first ≠ k.chain inner

/-- Every chain in a condition is such a one. -/
def Flat (c : Condition V) : Prop := ∀ n ∈ c.nodes, n.Chained

theorem nodes_chain (k : Connective) (items : List (Condition V)) :
    (k.chain items).nodes = k.chain items :: itemNodes items := by
  cases k <;> rfl

theorem itemNodes_append (cs ds : List (Condition V)) : itemNodes (cs ++ ds) = itemNodes cs ++ itemNodes ds := by
  induction cs with
  | nil => rfl
  | cons c cs ih => simp [itemNodes, ih]

theorem itemNodes_single (c : Condition V) : itemNodes [c] = c.nodes := List.append_nil _

theorem chain_injective {k k' : Connective} {items items' : List (Condition V)} (h : k.chain items = k'.chain items') :
    k = k' ∧ items = items' := by
  cases k <;> cases k' <;> cases h <;> exact ⟨rfl, rfl⟩

theorem chained_chain {k : Connective} {items : List (Condition V)} :
    (k.chain items).Chained ↔ 2 ≤ items.length ∧ ∀ first ∈ items.head?, ∀ inner, first ≠ k.chain inner := by
  constructor
  · exact fun h => h k items rfl
  · intro h k' items' heq
    obtain ⟨rfl, rfl⟩ := chain_injective heq
    exact h

theorem Flat.not {c : Condition V} (h : c.Flat) : (Condition.not c).Flat := by
  refine List.forall_mem_cons.mpr ⟨?_, h⟩
  intro k items heq
  cases k <;> cases heq

theorem Flat.join (k : Connective) {l r : Condition V} (hl : l.Flat) (hr : r.Flat) : (k.join l r).Flat := by
  rcases k.join_cases l r with ⟨items, rfl, hjoin⟩ | ⟨hother, hjoin⟩
  · rw [Flat, nodes_chain, List.forall_mem_cons, chained_chain] at hl
    obtain ⟨⟨hlength, hfirst⟩, hitems⟩ := hl
    rw [Flat, hjoin, nodes_chain, List.forall_mem_cons, chained_chain, itemNodes_append, itemNodes_single,
      List.forall_mem_append]
    refine ⟨⟨?_, ?_⟩, hitems, hr⟩
    · rw [List.length_append]
      omega
    · cases items with
      | nil => cases hlength
      | cons first items => exact hfirst
  · rw [Flat, hjoin, nodes_chain, List.forall_mem_cons, chained_chain]
    refine ⟨⟨Nat.le_refl 2, ?_⟩, ?_⟩
    · intro first hfirst
      obtain rfl : l = first := Option.some.inj hfirst
      exact hother
    · rw [itemNodes, itemNodes_single, List.forall_mem_append]
      exact ⟨hl, hr⟩

/-! ## (2) Height -/

mutual

/-- The levels of a condition; a comparison has one. -/
def height : Condition V → Nat
  | .compare .. => 1
  | .between .. => 1
  | .all items => itemsHeight items + 1
  | .any items => itemsHeight items + 1
  | .not c => height c + 1

def itemsHeight : List (Condition V) → Nat
  | [] => 0
  | c :: cs => max (height c) (itemsHeight cs)

end

theorem height_chain (k : Connective) (items : List (Condition V)) :
    (k.chain items).height = itemsHeight items + 1 := by
  cases k <;> rfl

theorem itemsHeight_append (cs ds : List (Condition V)) :
    itemsHeight (cs ++ ds) = max (itemsHeight cs) (itemsHeight ds) := by
  induction cs with
  | nil => simp [itemsHeight]
  | cons c cs ih => simp only [List.cons_append, itemsHeight, ih, Nat.max_assoc]

/-- What joining conditions of a height has led to so far: the first of them, or a chain of
    such conditions. -/
def Below (k : Connective) (h : Nat) (c : Condition V) : Prop :=
  c.height ≤ h ∨ ∃ items, c = k.chain items ∧ itemsHeight items ≤ h

theorem Below.height_le {k : Connective} {h : Nat} {c : Condition V} (hc : Below k h c) : c.height ≤ h + 1 := by
  rcases hc with hc | ⟨items, rfl, hitems⟩
  · exact Nat.le_succ_of_le hc
  · rw [height_chain]
    exact Nat.succ_le_succ hitems

theorem Below.join {k : Connective} {h : Nat} {l r : Condition V} (hl : Below k h l) (hr : r.height ≤ h) :
    Below k h (k.join l r) := by
  rcases k.join_cases l r with ⟨items, rfl, hjoin⟩ | ⟨hother, hjoin⟩
  · have hitems : itemsHeight items ≤ h := by
      have hheight := hl.height_le
      rw [height_chain] at hheight
      omega
    refine .inr ⟨items ++ [r], hjoin, ?_⟩
    rw [itemsHeight_append, itemsHeight, itemsHeight]
    omega
  · rcases hl with hl | ⟨items, rfl, -⟩
    · refine .inr ⟨[l, r], hjoin, ?_⟩
      simp only [itemsHeight]
      omega
    · exact absurd rfl (hother items)

end Condition

/-! ### Phrases -/

section Joined

variable {α β : Type} {join : β → β → β} {meaning : α → β} {P : β → Prop}

/-- What joining in one more item keeps holds of items that are joined. -/
theorem Chain.joined_of_step (c : Chain α) (hhead : ∀ a, P (meaning a)) (hstep : ∀ b a, P b → P (join b (meaning a))) :
    P (c.joined join meaning) := by
  obtain ⟨head, tail⟩ := c
  have hfold : ∀ b, P b → P ((tail.map meaning).foldl join b) := by
    induction tail with
    | nil => exact fun b hb => hb
    | cons a tail ih => exact fun b hb => ih _ (hstep b a hb)
  exact hfold _ (hhead head)

end Joined

open Condition (Flat Below)

variable {τ : Type} {meaning : τ → Condition Operand} {h : Nat}

theorem joined_flat (k : Connective) (hmeaning : ∀ t, (meaning t).Flat) (c : Chain τ) :
    (c.joined k.join meaning).Flat :=
  c.joined_of_step hmeaning fun _ t hc => hc.join k (hmeaning t)

theorem joined_height_le (k : Connective) (hmeaning : ∀ t, (meaning t).height ≤ h) (c : Chain τ) :
    (c.joined k.join meaning).height ≤ h + 1 := by
  have hbelow : Below k h (c.joined k.join meaning) :=
    c.joined_of_step (fun t => .inl (hmeaning t)) fun _ t hc => hc.join (hmeaning t)
  exact hbelow.height_le

theorem ConditionOf.flat (hmeaning : ∀ t, (meaning t).Flat) (c : ConditionOf τ) : (c.condition meaning).Flat :=
  joined_flat .or (joined_flat .and hmeaning) c

theorem ConditionOf.height_le (hmeaning : ∀ t, (meaning t).height ≤ h) (c : ConditionOf τ) :
    (c.condition meaning).height ≤ h + 2 :=
  joined_height_le .or (joined_height_le .and hmeaning) c

theorem ComparisonPhrase.nodes_condition (c : ComparisonPhrase) : c.condition.nodes = [c.condition] := by
  obtain ⟨field, predicate⟩ := c
  cases predicate <;> rfl

theorem ComparisonPhrase.flat (c : ComparisonPhrase) : c.condition.Flat := by
  rw [Flat, c.nodes_condition, List.forall_mem_singleton]
  intro k items heq
  obtain ⟨field, predicate⟩ := c
  cases predicate <;> cases k <;> cases heq

theorem ComparisonPhrase.height_eq (c : ComparisonPhrase) : c.condition.height = 1 := by
  obtain ⟨field, predicate⟩ := c
  cases predicate <;> rfl

theorem TermPhrase.flat (levels : Nat) (t : TermPhrase levels) : (t.condition levels).Flat := by
  induction levels with
  | zero =>
    cases (t : TermOver Empty) with
    | comparison c => exact c.flat
    | not e => exact e.elim
    | group c => exact c.head.head.elim
  | succ levels ih =>
    cases (t : TermOver (TermPhrase levels)) with
    | comparison c => exact c.flat
    | not t => exact (ih t).not
    | group c => exact c.flat ih

/-- A negation adds one level, and a pair of brackets two: a disjunction of conjunctions. -/
theorem TermPhrase.height_le (levels : Nat) (t : TermPhrase levels) : (t.condition levels).height ≤ 2 * levels + 1 := by
  induction levels with
  | zero =>
    cases (t : TermOver Empty) with
    | comparison c => exact c.height_eq.le
    | not e => exact e.elim
    | group c => exact c.head.head.elim
  | succ levels ih =>
    cases (t : TermOver (TermPhrase levels)) with
    | comparison c =>
      have hone := c.height_eq
      show c.condition.height ≤ _
      omega
    | not t =>
      have ht := ih t
      show (t.condition levels).height + 1 ≤ _
      omega
    | group c =>
      have hc := c.height_le ih
      show (c.condition (TermPhrase.condition levels)).height ≤ _
      omega

theorem ConditionPhrase.flat (c : ConditionPhrase) : c.condition.Flat := ConditionOf.flat (TermPhrase.flat _) c

theorem ConditionPhrase.height_le (c : ConditionPhrase) : c.condition.height ≤ 2 * Parser.maxNesting + 3 :=
  ConditionOf.height_le (TermPhrase.height_le _) c

/-! ## (3) Resolution -/

namespace Condition

variable {V W : Type} (field : String → String) (f : V → W)

mutual

theorem nodes_map (c : Condition V) : (c.map field f).nodes = c.nodes.map (·.map field f) := by
  match c with
  | .compare .. => rfl
  | .between .. => rfl
  | .all cs => simpa [map, nodes] using itemNodes_map cs
  | .any cs => simpa [map, nodes] using itemNodes_map cs
  | .not c => simpa [map, nodes] using nodes_map c

theorem itemNodes_map (cs : List (Condition V)) :
    itemNodes (mapItems field f cs) = (itemNodes cs).map (·.map field f) := by
  match cs with
  | [] => rfl
  | c :: cs => simp [mapItems, itemNodes, nodes_map c, itemNodes_map cs]

end

mutual

theorem height_map (c : Condition V) : (c.map field f).height = c.height := by
  match c with
  | .compare .. => rfl
  | .between .. => rfl
  | .all cs => simpa [map, height] using itemsHeight_map cs
  | .any cs => simpa [map, height] using itemsHeight_map cs
  | .not c => simpa [map, height] using height_map c

theorem itemsHeight_map (cs : List (Condition V)) : itemsHeight (mapItems field f cs) = itemsHeight cs := by
  match cs with
  | [] => rfl
  | c :: cs => rw [mapItems, itemsHeight, itemsHeight, height_map c, itemsHeight_map cs]

end

theorem mapItems_eq_map (cs : List (Condition V)) : mapItems field f cs = cs.map (·.map field f) := by
  induction cs with
  | nil => rfl
  | cons c cs ih => rw [mapItems, ih, List.map_cons]

theorem map_eq_chain {c : Condition V} {k : Connective} {items : List (Condition W)} :
    c.map field f = k.chain items ↔ ∃ cs, c = k.chain cs ∧ items = cs.map (·.map field f) := by
  cases k <;> cases c <;> simp [map, Connective.chain, mapItems_eq_map, eq_comm]

theorem chained_map (c : Condition V) : (c.map field f).Chained ↔ c.Chained := by
  constructor
  · intro h k items heq
    obtain ⟨hlength, hfirst⟩ := h k _ ((map_eq_chain field f).mpr ⟨items, heq, rfl⟩)
    refine ⟨by simpa using hlength, fun first hmem inner hinner => ?_⟩
    have hhead : first.map field f ∈ (items.map (·.map field f)).head? := by simpa using ⟨first, hmem, rfl⟩
    exact hfirst _ hhead _ ((map_eq_chain field f).mpr ⟨inner, hinner, rfl⟩)
  · intro h k items heq
    obtain ⟨cs, rfl, rfl⟩ := (map_eq_chain field f).mp heq
    obtain ⟨hlength, hfirst⟩ := h k cs rfl
    refine ⟨by simpa using hlength, fun first hmem inner hinner => ?_⟩
    rw [List.head?_map, Option.mem_def, Option.map_eq_some_iff] at hmem
    obtain ⟨c, hc, rfl⟩ := hmem
    obtain ⟨ds, rfl, -⟩ := (map_eq_chain field f).mp hinner
    exact hfirst _ hc ds rfl

theorem flat_map (c : Condition V) : (c.map field f).Flat ↔ c.Flat := by
  simp only [Flat, nodes_map, List.forall_mem_map, chained_map]

/-- What comes out of a substitution is as flat and as high as what went in. -/
theorem flat_of_shape {field : String → String} {c : Condition V} {d : Condition W}
    (h : d.shape = c.map field fun _ => ()) : (d.Flat ↔ c.Flat) ∧ d.height = c.height := by
  have hflat := flat_map id (fun _ => ()) d
  have hheight := height_map id (fun _ => ()) d
  rw [← shape, h] at hflat hheight
  exact ⟨hflat.symm.trans (flat_map _ _ c), hheight.symm.trans (height_map _ _ c)⟩

end Condition

namespace Query

variable {V W : Type}

/-- The condition of a query that has one. -/
def condition? : Query V → Option (Condition V)
  | .select q => q.condition
  | .update q => q.condition
  | _ => none

theorem condition?_map (naming : Naming) (f : V → W) (q : Query V) :
    ∃ field, (q.map naming f).condition? = q.condition?.map (·.map field f) := by
  cases q with
  | select q => exact ⟨naming.field q.entity, rfl⟩
  | update q => exact ⟨naming.field q.entity, rfl⟩
  | _ => exact ⟨id, rfl⟩

theorem condition?_shape (q : Query V) : q.shape.condition? = q.condition?.map Condition.shape := by
  cases q <;> rfl

/-- A query that resolves keeps its condition, with other names and operands. -/
theorem condition?_resolve {b : Bindings} {q : Query Operand} {naming : Naming} {convert : Converter} {r : Query Value}
    {d : Condition Value} (h : b.resolve q naming convert = .ok r) (hd : r.condition? = some d) :
    ∃ c field, q.condition? = some c ∧ d.shape = c.map field fun _ => () := by
  rw [Bindings.resolve] at h
  split at h
  · have hshape := congrArg condition? (substitute_eq_ok.mp h).1
    obtain ⟨field, hfield⟩ := condition?_map (b.substitution naming convert).naming (fun _ => ()) q
    rw [condition?_shape, hd, hfield, Option.map_some, eq_comm, Option.map_eq_some_iff] at hshape
    obtain ⟨c, hc, hshape⟩ := hshape
    exact ⟨c, field, hc, hshape.symm⟩
  · cases h

theorem exists_phrase_of_condition {text : String} {q : Query Operand} {c : Condition Operand}
    (h : Query.parse text = .ok q) (hc : q.condition? = some c) : ∃ p : ConditionPhrase, p.condition = c := by
  obtain ⟨d, -, rfl⟩ := writtenAs_of_parse h
  cases d with
  | select s =>
    obtain ⟨p, -, hp⟩ := Option.map_eq_some_iff.mp hc
    exact ⟨p, hp⟩
  | update u =>
    obtain ⟨p, -, hp⟩ := Option.map_eq_some_iff.mp hc
    exact ⟨p, hp⟩
  | _ => cases hc

end Query

/-- Every condition that is read, on its own or in the query of a text, is flat and of
    bounded height, and so is what it resolves to. -/
theorem condition_trees :
    (∀ (s s' : ParserState) (c : Condition Operand), Parser.condition s = .ok c s' →
      c.Flat ∧ c.height ≤ 2 * Parser.maxNesting + 3) ∧
    (∀ (text : String) (q : Query Operand) (c : Condition Operand), Query.parse text = .ok q → q.condition? = some c →
      c.Flat ∧ c.height ≤ 2 * Parser.maxNesting + 3) ∧
    ∀ (b : Bindings) (q : Query Operand) (naming : Naming) (convert : Converter) (r : Query Value) (d : Condition Value),
      b.resolve q naming convert = .ok r → r.condition? = some d →
        ∃ c, q.condition? = some c ∧ (d.Flat ↔ c.Flat) ∧ d.height = c.height := by
  refine ⟨?_, ?_, ?_⟩
  · intro s s' c h
    obtain ⟨p, rfl, -⟩ := Parser.condition_reads.sound h
    exact ⟨p.flat, p.height_le⟩
  · intro text q c h hc
    obtain ⟨p, rfl⟩ := Query.exists_phrase_of_condition h hc
    exact ⟨p.flat, p.height_le⟩
  · intro b q naming convert r d h hd
    obtain ⟨c, field, hc, hshape⟩ := Query.condition?_resolve h hd
    exact ⟨c, hc, Condition.flat_of_shape hshape⟩

/-- A group that becomes part of the chain behind it, beside a negation. -/
def mixedPhrase : SelectPhrase :=
  let test (name : String) : ComparisonPhrase := ⟨⟨name, []⟩, .relation .equals (.param "x")⟩
  let outer (name : String) : TermPhrase Parser.maxNesting := TermOver.comparison (test name)
  let inner (name : String) : TermPhrase (Parser.maxNesting - 1) := TermOver.comparison (test name)
  let group : TermPhrase Parser.maxNesting := TermOver.group ⟨⟨inner "a", [inner "b"]⟩, []⟩
  let negation : TermPhrase Parser.maxNesting := TermOver.not (inner "d")
  ⟨.star, "P", some ⟨⟨group, [outer "c"]⟩, [⟨negation, []⟩]⟩, none, none, none⟩

theorem condition_trees_mixed :
    let text := "select * from P where (a = @x and b = @x) and c = @x or not d = @x"
    let test {V : Type} (x : V) (name : String) : Condition V := .compare name .equals x
    let tree {V : Type} (x : V) : Condition V := .any [.all [test x "a", test x "b", test x "c"], .not (test x "d")]
    let query {V : Type} (x : V) : Query V := .select ⟨"P", [], some (tree x), [], none, none⟩
    let b := (Bindings.ofQuery (query (.param "x"))).bindAll [("x", .null)]
    Query.parse text = .ok (query (.param "x")) ∧ (tree (Operand.param "x")).Flat ∧
      b.resolve (query (.param "x")) .identity Converter.standard = .ok (query .null) ∧ (tree Value.null).Flat ∧
      (tree Value.null).height = 3 ∧ ∃ c s', Parser.condition nullTests = .ok c s' ∧ c.Flat := by
  intro text test tree query b
  have hwritten : (QueryPhrase.select mixedPhrase).WrittenAs text := QueryPhrase.writtenAs_of_tokens (by decide +kernel)
  have hparse : Query.parse text = .ok (query (.param "x")) := Query.parse_of_writtenAs hwritten
  have hresolve : b.resolve (query (.param "x")) .identity Converter.standard = .ok (query .null) := rfl
  obtain ⟨hflat, -⟩ := condition_trees.2.1 text _ _ hparse rfl
  obtain ⟨c, hc, hkept, hheight⟩ := condition_trees.2.2 b _ .identity Converter.standard _ _ hresolve rfl
  obtain rfl : tree (.param "x") = c := Option.some.inj hc
  obtain ⟨hnull, -⟩ := condition_trees.1 nullTests _ _ rfl
  exact ⟨hparse, hflat, hresolve, hkept.mpr hflat, hheight, _, _, rfl, hnull⟩

end EntityQuery
