/-
  EntityQuery.Proofs.Pages — pages and ranges of what a statement answers.

  A statement that selects answers, under any page or limit, a window of what it answers
  without one (`Statement.list_windowed`): a window changes neither what its query
  resolves to nor which entities are found, nor their order. Pages of one size lie end to
  end, so together they are the whole answer (`pages_tile_answer`).

  Counts stop at a greatest one. An answer that fits in memory is not longer than that, so
  a page that starts behind it is empty, as it would be if counts went on.
-/

import EntityQuery.Proofs.Execution
import EntityQuery.Proofs.Selection

namespace EntityQuery

/-! ## Windows of a list -/

section Lists

variable {α : Type}

/-- A window from one place to another, cut at the end. -/
theorem take_drop_eq_extract (xs : List α) (start n : Nat) :
    (xs.drop start).take n = xs.extract start (min (start + n) xs.length) := by
  rw [List.extract_eq_take_drop, List.take_eq_take_iff, List.length_drop]
  omega

/-- Windows of one size, end to end. -/
theorem flatMap_windows (xs : List α) (size n : Nat) :
    ((List.range n).flatMap fun i => (xs.drop (i * size)).take size) = xs.take (n * size) := by
  induction n with
  | zero => simp
  | succ n ih => rw [List.range_succ, List.flatMap_append, ih, List.flatMap_singleton, Nat.succ_mul, List.take_add]

theorem drop_min_countLimit {xs : List α} (h : xs.length ≤ countLimit) (n : Nat) :
    xs.drop (min n countLimit) = xs.drop n := by
  by_cases hn : n ≤ countLimit
  · rw [Nat.min_eq_left hn]
  · have hlong : xs.length ≤ n := by omega
    rw [Nat.min_eq_right (by omega), List.drop_eq_nil_of_le h, List.drop_eq_nil_of_le hlong]

theorem take_min_countLimit {xs : List α} (h : xs.length ≤ countLimit) (n : Nat) :
    xs.take (min n countLimit) = xs.take n := by
  rw [List.take_eq_take_iff]
  omega

end Lists

/-! ## Windows of a select -/

namespace Store

/-- A select in a window answers the window of what it answers without one. -/
theorem select_windowed (s : Store) (q : SelectQuery Value) (skip limit : Option Nat) :
    s.select { q with skip := skip, limit := limit } =
      (s.select { q with skip := none, limit := none }).map (window skip limit) := by
  cases hes : s.collection? q.entity with
  | none => simp only [select, hes, Except.map, window_nil]
  | some es =>
    simp only [select, hes]
    cases Filter.keeping q.condition with
    | error e => rfl
    | ok keep => exact congrArg Except.ok (window_map skip limit _ _).symm

end Store

theorem Paging.apply_of_window {V : Type} {p : Paging} {skip n : Nat} (h : p.window? = some (skip, n))
    (field : String → String) (q : SelectQuery V) :
    p.apply field q =
      { q with sorts := q.sorts ++ p.sorts.map (·.rename field), skip := some skip, limit := some n } := by
  simp only [apply, h]

/-- A window is no part of what is resolved. -/
theorem Bindings.resolve_windowed (b : Bindings) (q : SelectQuery Operand) (naming : Naming) (convert : Converter) :
    ∃ r : Except QueryError (SelectQuery Value), ∀ skip limit,
      b.resolve (.select { q with skip := skip, limit := limit }) naming convert =
        r.map fun t => .select { t with skip := skip, limit := limit } := by
  let condition := Query.substituteCondition (naming.field q.entity) (b.resolveOperand convert) q.condition
  let select (c : Option (Condition Value)) : SelectQuery Value :=
    ⟨naming.entity q.entity, q.fields.map (naming.field q.entity), c, q.sorts.map (·.rename (naming.field q.entity)),
      none, none⟩
  refine ⟨if b.isAllBound then condition.map select else .error (.query (.parametersLeft b.unbound)), fun skip limit => ?_⟩
  rw [resolve]
  split
  · show condition.bind _ = _
    cases condition <;> rfl
  · rfl

/-! ## Statements -/

/-- Leaves out the window that a text asks for. -/
def Query.unwindowed {V : Type} : Query V → Query V
  | .select q => .select { q with skip := none, limit := none }
  | q => q

def Statement.unwindowed (s : Statement) : Statement := { s with query := s.query.unwindowed }

namespace Statement

variable {s : Statement} {q : SelectQuery Operand}

/-- Under a window, a statement resolves to what it does without one, and the window. -/
theorem resolve_windowed (hq : s.query = .select q) (sorts : List SortKey) :
    ∃ r : Except QueryError (SelectQuery Value),
      (s.unwindowed.withPaging ⟨none, sorts, none⟩).resolve =
        r.map (fun t => .select { t with skip := none, limit := none }) ∧
      ∀ page limit skip n, (Paging.mk page sorts limit).window? = some (skip, n) →
        (s.withPaging ⟨page, sorts, limit⟩).resolve =
          r.map fun t => .select { t with skip := some skip, limit := some n } := by
  obtain ⟨query, bindings, paging, naming, convert⟩ := s
  obtain rfl : query = .select q := hq
  obtain ⟨r, hr⟩ := bindings.resolve_windowed q naming convert
  have hown : bindings.resolve (.select q) naming convert = r.map fun t => .select { t with skip := q.skip, limit := q.limit } :=
    hr q.skip q.limit
  refine ⟨r.map fun t => { t with sorts := t.sorts ++ sorts.map (·.rename (naming.field q.entity)) }, ?_, ?_⟩
  · show (bindings.resolve (.select { q with skip := none, limit := none }) naming convert).map _ = _
    rw [hr none none]
    cases r <;> rfl
  · intro page limit skip n hwindow
    show (bindings.resolve (.select q) naming convert).map _ = _
    rw [hown]
    cases r with
    | error e => rfl
    | ok t =>
      show Except.ok (Query.select ((Paging.mk page sorts limit).apply (naming.field q.entity) _)) = _
      rw [Paging.apply_of_window hwindow]
      rfl

theorem list_windowed (hq : s.query = .select q) {sorts : List SortKey} {store after : Store} {rows : List Entity}
    (hrows : (s.unwindowed.withPaging ⟨none, sorts, none⟩).list Store.manager store = (.ok rows, after))
    {page : Option PageRequest} {limit : Option Limit} {skip n : Nat}
    (hwindow : (Paging.mk page sorts limit).window? = some (skip, n)) :
    (s.withPaging ⟨page, sorts, limit⟩).list Store.manager store = (.ok ((rows.drop skip).take n), store) := by
  obtain ⟨r, hnone, hsome⟩ := resolve_windowed hq sorts
  cases r with
  | error e =>
    rw [list, hnone] at hrows
    cases hrows
  | ok t =>
    rw [list, hnone] at hrows
    obtain ⟨hselect, -⟩ := Prod.mk.inj hrows
    rw [list, hsome page limit skip n hwindow]
    show (store.select _, store) = _
    rw [Store.select_windowed, hselect]
    rfl

end Statement

/-- Pages and ranges of what a statement answers without a window of its own, whatever it
    is sorted by. Page 0 is page 1, and a limit goes before a page. -/
theorem pages_tile_answer (s : Statement) (q : SelectQuery Operand) (hq : s.query = .select q) (sorts : List SortKey)
    (store after : Store) (rows : List Entity)
    (hrows : (s.unwindowed.withPaging ⟨none, sorts, none⟩).list Store.manager store = (.ok rows, after))
    (hlength : rows.length ≤ countLimit) :
    (∀ size ≥ 1, ∃ pages : Nat → List Entity,
      (∀ number own, (s.withPaging ⟨some ⟨number, size, own⟩, sorts, none⟩).list Store.manager store =
        (.ok (pages number), store)) ∧
      (∀ number ≥ 1, pages number = rows.extract ((number - 1) * size) (min (number * size) rows.length)) ∧
      pages 0 = pages 1 ∧
      ((List.range ((rows.length + size - 1) / size)).flatMap fun i => pages (i + 1)) = rows) ∧
    ∀ first last, 1 ≤ first → first ≤ last → ∀ page,
      (s.withPaging ⟨page, sorts, some (.range first last)⟩).list Store.manager store =
        (.ok (rows.extract (first - 1) (min last rows.length)), store) := by
  constructor
  · intro size hsize
    let pages (number : Nat) : List Entity := (rows.drop ((number - 1) * size)).take size
    refine ⟨pages, ?_, ?_, ?_, ?_⟩
    · intro number own
      rw [Statement.list_windowed hq hrows rfl]
      show (Except.ok ((rows.drop (min ((number - 1) * size) countLimit)).take size), store) = _
      rw [drop_min_countLimit hlength]
    · intro number hnumber
      have hnext : (number - 1) * size + size = number * size := by
        rw [← Nat.succ_mul, Nat.succ_eq_add_one, Nat.sub_add_cancel hnumber]
      show (rows.drop ((number - 1) * size)).take size = _
      rw [take_drop_eq_extract, hnext]
    · rfl
    · have hcovers : rows.length ≤ (rows.length + size - 1) / size * size := by
        have hdiv := Nat.div_add_mod (rows.length + size - 1) size
        have hmod := Nat.mod_lt (rows.length + size - 1) hsize
        rw [Nat.mul_comm]
        omega
      show ((List.range _).flatMap fun i => (rows.drop ((i + 1 - 1) * size)).take size) = rows
      simp only [Nat.add_sub_cancel]
      rw [flatMap_windows, List.take_of_length_le hcovers]
  · intro first last hfirst hlast page
    rw [Statement.list_windowed hq hrows rfl]
    show (Except.ok ((rows.drop (first - 1)).take (min (last - first + 1) countLimit)), store) = _
    have hend : first - 1 + (last - first + 1) = last := by omega
    have hrest : (rows.drop (first - 1)).length ≤ countLimit := by
      rw [List.length_drop]
      omega
    rw [take_min_countLimit hrest, take_drop_eq_extract, hend]

def adultsText : String := "select name from Person where age > @least order by age desc skip 1 limit 1"

def adults : SelectPhrase where
  selection := .paths ⟨⟨"name", []⟩, []⟩
  entity := "Person"
  condition := some ⟨⟨.comparison ⟨⟨"age", []⟩, .relation .greater (.param "least")⟩, []⟩, []⟩
  order := some ⟨⟨⟨"age", []⟩, some .desc⟩, []⟩
  skip := some ⟨1, by decide⟩
  limit := some ⟨1, by decide⟩

theorem read_adults : (Dialect.ofFamily .document).read adultsText = .ok (.select adults.query) := by
  have hwritten : (QueryPhrase.select adults).WrittenAs adultsText :=
    QueryPhrase.writtenAs_of_tokens (by decide +kernel)
  exact Dialect.read_of_writtenAs hwritten rfl

/-- The last page of size 3 holds the youngest alone, and a range goes before it. -/
theorem pages_tile_answer_people :
    let store : Store := people.foldl .add .empty
    let rows : List Entity := ["Di", "Cy", "Ada", "Bob"].map fun name => ⟨"Person", [("name", .string name)]⟩
    rows.length ≤ countLimit ∧
    ∃ prepared s, (Dialect.ofFamily .document).prepare adultsText .identity = .ok prepared ∧
      prepared.bind "least" (.integer 18) = .ok s ∧ s.query = .select adults.query ∧
      (s.unwindowed.withPaging .empty).list Store.manager store = (.ok rows, store) ∧
      (s.withPaging ⟨some ⟨2, 3, []⟩, [], none⟩).list Store.manager store = (.ok (rows.extract 3 4), store) ∧
      (s.withPaging ⟨some ⟨2, 3, []⟩, [], some (.range 2 3)⟩).list Store.manager store =
        (.ok (rows.extract 1 3), store) := by
  intro store rows
  have hlength : rows.length ≤ countLimit := by decide
  let prepared : Statement := .ofQuery (.select adults.query) .identity .standard
  let s : Statement := { prepared with bindings := ⟨["least"], [("least", .integer 18)]⟩ }
  have hrows : (s.unwindowed.withPaging .empty).list Store.manager store = (.ok rows, store) := by
    dsimp only [s, prepared, store, rows]
    with_unfolding_all rfl
  obtain ⟨hpages, hranges⟩ := pages_tile_answer s adults.query rfl [] store store rows hrows hlength
  obtain ⟨pages, hrun, hpage, -⟩ := hpages 3 (by decide)
  refine ⟨hlength, prepared, s, Dialect.prepare_eq_ok.mpr ⟨_, read_adults, rfl⟩, rfl, rfl, hrows, ?_,
    hranges 2 3 (by decide) (by decide) _⟩
  rw [hrun, hpage 2 (by decide)]
  rfl

end EntityQuery
