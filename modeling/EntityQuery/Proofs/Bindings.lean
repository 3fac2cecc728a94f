/-
  EntityQuery.Proofs.Bindings — binding the parameters of a query, one after the other.

  (1) One bind. It fails exactly for a name that is not declared, and changes nothing
  then (`Bindings.bind_eq_ok`, `Bindings.bind_eq_error`). The declared names differ, and
  so do the bound ones, which are among them (`Bindings.WellFormed`).

  (2) Histories. Of all binds of a history only those of declared names count
  (`Bindings.accepted`), and of those the last of each name.

  (3) State. It says whether a declared name is left and whether any is bound, and no bind
  takes it back (`Bindings.rank_bindAll`).

  (4) Order. Bindings are alike if they declare the same names and give them the same
  values; then no query tells them apart (`Bindings.Alike.resolve`). Two binds of
  different names make alike bindings in either order (`Bindings.tryBind_comm`).
-/

import EntityQuery.Proofs.Resolution

namespace EntityQuery

/-- How far binding has come. -/
def BindingState.rank : BindingState → Nat
  | created => 0
  | partiallyBound => 1
  | fullyBound => 2

namespace Bindings

variable {b : Bindings}

/-! ## (1) One bind -/

theorem isDeclared_iff {name : String} : b.isDeclared name = true ↔ name ∈ b.declared := by simp [isDeclared]

theorem bind_eq_ok {name : String} {value : Value} {after : Bindings} : b.bind name value = .ok after ↔
    name ∈ b.declared ∧ after = { b with bound := (name, value) :: b.bound.filter (·.1 != name) } := by
  unfold bind
  by_cases h : name ∈ b.declared
  · simp [isDeclared_iff.mpr h, h, eq_comm]
  · simp [mt isDeclared_iff.mp h, h]

theorem bind_eq_error {name : String} {value : Value} {e : QueryError} : b.bind name value = .error e ↔
    name ∉ b.declared ∧ e = .illegalArgument (.undeclaredParameter name b.declared) := by
  unfold bind
  by_cases h : name ∈ b.declared
  · simp [isDeclared_iff.mpr h, h]
  · simp [mt isDeclared_iff.mp h, h, eq_comm]

theorem tryBind_of_declared {name : String} (h : name ∈ b.declared) (value : Value) :
    b.tryBind name value = { b with bound := (name, value) :: b.bound.filter (·.1 != name) } := by
  rw [tryBind, bind_eq_ok.mpr ⟨h, rfl⟩]

theorem tryBind_of_undeclared {name : String} (h : name ∉ b.declared) (value : Value) : b.tryBind name value = b := by
  rw [tryBind, bind_eq_error.mpr ⟨h, rfl⟩]

/-- The names that have a value. -/
def names (b : Bindings) : List String := b.bound.map (·.1)

structure WellFormed (b : Bindings) : Prop where
  declared_differ : b.declared.Nodup
  names_differ : b.names.Nodup
  names_declared : ∀ name ∈ b.names, name ∈ b.declared

theorem wellFormed_ofQuery (q : Query Operand) : (ofQuery q).WellFormed := ⟨Query.nodup_distinct _, .nil, nofun⟩

namespace WellFormed

theorem tryBind (h : b.WellFormed) (name : String) (value : Value) : (b.tryBind name value).WellFormed := by
  by_cases hn : name ∈ b.declared
  · have hkept : ∀ other ∈ (b.bound.filter (·.1 != name)).map (·.1), other ∈ b.names ∧ other ≠ name := by
      intro other hother
      obtain ⟨e, he, rfl⟩ := List.mem_map.mp hother
      obtain ⟨hmem, hne⟩ := List.mem_filter.mp he
      exact ⟨List.mem_map_of_mem hmem, by simpa using hne⟩
    rw [tryBind_of_declared hn]
    refine ⟨h.declared_differ, List.nodup_cons.mpr ⟨fun hin => (hkept name hin).2 rfl, ?_⟩, ?_⟩
    · exact h.names_differ.sublist (List.filter_sublist.map _)
    · intro other hother
      rcases List.mem_cons.mp hother with rfl | hother
      · exact hn
      · exact h.names_declared other (hkept other hother).1
  · rw [tryBind_of_undeclared hn]
    exact h

theorem bindAll (h : b.WellFormed) (history : List (String × Value)) : (b.bindAll history).WellFormed := by
  induction history generalizing b with
  | nil => exact h
  | cons e history ih => exact ih (h.tryBind e.1 e.2)

end WellFormed

/-! ## (2) Histories -/

/-- The binds of a history that succeed, each after those before it. -/
def accepted (b : Bindings) : List (String × Value) → List (String × Value)
  | [] => []
  | (name, value) :: history =>
    match b.bind name value with
    | .ok after => (name, value) :: accepted after history
    | .error _ => accepted b history

theorem accepted_eq_filter (history : List (String × Value)) :
    b.accepted history = history.filter fun e => b.isDeclared e.1 := by
  induction history generalizing b with
  | nil => rfl
  | cons e history ih =>
    obtain ⟨name, value⟩ := e
    rw [accepted, List.filter_cons]
    by_cases hn : name ∈ b.declared
    · rw [bind_eq_ok.mpr ⟨hn, rfl⟩, if_pos (isDeclared_iff.mpr hn)]
      exact congrArg ((name, value) :: ·) ih
    · rw [bind_eq_error.mpr ⟨hn, rfl⟩, if_neg (mt isDeclared_iff.mp hn)]
      exact ih

/-- A name has the value of its last bind that succeeded. -/
theorem get?_accepted (q : Query Operand) (history : List (String × Value)) (name : String) :
    ((ofQuery q).bindAll history).get? name = lastBound ((ofQuery q).accepted history) name := by
  have hnone : (ofQuery q).get? name = none := rfl
  have hlast : lastBound ((ofQuery q).accepted history) name =
      if (ofQuery q).isDeclared name then lastBound history name else none := by
    rw [accepted_eq_filter, lastBound, ← List.filter_reverse]
    exact lookup_filter_names name (ofQuery q).isDeclared history.reverse
  rw [get?_bindAll, hnone, Option.or_none, hlast]

theorem lookup_eq_none {bound : List (String × Value)} {name : String} :
    bound.lookup name = none ↔ name ∉ bound.map (·.1) := by
  induction bound with
  | nil => simp
  | cons e bound ih =>
    obtain ⟨n, v⟩ := e
    rw [lookup_bound_cons]
    by_cases hn : name = n <;> simp [hn, ih]

theorem get?_eq_none {name : String} : b.get? name = none ↔ name ∉ b.names := lookup_eq_none

theorem lastBound_eq_none {history : List (String × Value)} {name : String} :
    lastBound history name = none ↔ name ∉ history.map (·.1) := by
  rw [lastBound, lookup_eq_none, List.map_reverse, List.mem_reverse]

theorem names_eq_nil_iff : b.names = [] ↔ ∀ name, b.get? name = none := by
  simp only [get?_eq_none, List.eq_nil_iff_forall_not_mem]

/-! ## (3) State -/

theorem unbound_eq (b : Bindings) : b.unbound = b.declared.filter (· ∉ b.names) := by
  refine List.filter_congr fun name _ => ?_
  rw [Bool.eq_iff_iff, Option.isNone_iff_eq_none, get?_eq_none, decide_eq_true_iff]

theorem state_eq_fullyBound : b.state = .fullyBound ↔ b.unbound = [] := by
  unfold state isAllBound
  cases b.unbound <;> cases b.bound <;> simp

theorem state_eq_created : b.state = .created ↔ b.unbound ≠ [] ∧ b.names = [] := by
  unfold state isAllBound names
  cases b.unbound <;> cases b.bound <;> simp

theorem state_eq_partiallyBound : b.state = .partiallyBound ↔ b.unbound ≠ [] ∧ b.names ≠ [] := by
  unfold state isAllBound names
  cases b.unbound <;> cases b.bound <;> simp

/-- A bind takes its name from those that are left. -/
theorem unbound_tryBind (b : Bindings) (name : String) (value : Value) :
    (b.tryBind name value).unbound = b.unbound.filter (· != name) := by
  rw [unbound, unbound, tryBind_declared, List.filter_filter]
  refine List.filter_congr fun other hother => ?_
  rw [tryBind_get?]
  by_cases hname : other = name
  · simp [isDeclared_iff.mpr hother, ← hname]
  · simp [hname]

theorem names_tryBind (b : Bindings) (name : String) (value : Value) (h : b.names ≠ []) :
    (b.tryBind name value).names ≠ [] := by
  by_cases hn : name ∈ b.declared
  · rw [tryBind_of_declared hn]
    exact List.cons_ne_nil _ _
  · rw [tryBind_of_undeclared hn]
    exact h

/-- No bind takes the state back. -/
theorem rank_tryBind (b : Bindings) (name : String) (value : Value) :
    b.state.rank ≤ (b.tryBind name value).state.rank := by
  cases hs : b.state with
  | created => exact Nat.zero_le _
  | partiallyBound =>
    have hnames := names_tryBind b name value (state_eq_partiallyBound.mp hs).2
    cases hafter : (b.tryBind name value).state with
    | created => exact absurd (state_eq_created.mp hafter).2 hnames
    | partiallyBound => exact Nat.le_refl _
    | fullyBound => exact Nat.le_succ _
  | fullyBound =>
    have hfull : (b.tryBind name value).state = .fullyBound := by
      rw [state_eq_fullyBound, unbound_tryBind, state_eq_fullyBound.mp hs, List.filter_nil]
    exact Nat.le_of_eq (congrArg BindingState.rank hfull.symm)

theorem rank_bindAll (b : Bindings) (history : List (String × Value)) :
    b.state.rank ≤ (b.bindAll history).state.rank := by
  induction history generalizing b with
  | nil => exact Nat.le_refl _
  | cons e history ih => exact Nat.le_trans (rank_tryBind b e.1 e.2) (ih _)

/-! ## (4) Order -/

/-- Bindings that declare the same names and give them the same values, in whatever order
    these were bound. -/
structure Alike (b c : Bindings) : Prop where
  declared : b.declared = c.declared
  get? : ∀ name, b.get? name = c.get? name

namespace Alike

variable {c : Bindings}

theorem unbound (h : b.Alike c) : b.unbound = c.unbound := by
  rw [Bindings.unbound, Bindings.unbound, h.declared]
  exact List.filter_congr fun name _ => by rw [h.get? name]

theorem names_eq_nil (h : b.Alike c) : b.names = [] ↔ c.names = [] := by
  simp only [names_eq_nil_iff, h.get?]

theorem state (h : b.Alike c) : b.state = c.state := by
  cases hs : c.state with
  | created =>
    obtain ⟨hleft, hnames⟩ := state_eq_created.mp hs
    exact state_eq_created.mpr ⟨h.unbound ▸ hleft, h.names_eq_nil.mpr hnames⟩
  | partiallyBound =>
    obtain ⟨hleft, hnames⟩ := state_eq_partiallyBound.mp hs
    exact state_eq_partiallyBound.mpr ⟨h.unbound ▸ hleft, mt h.names_eq_nil.mp hnames⟩
  | fullyBound => exact state_eq_fullyBound.mpr (h.unbound.trans (state_eq_fullyBound.mp hs))

section Resolve

variable {m : Type → Type} [Monad m] [MonadExcept QueryError m] (convert : Converter m)

mutual

theorem resolveOperand (h : b.Alike c) (o : Operand) : b.resolveOperand convert o = c.resolveOperand convert o := by
  match o with
  | .literal l => rfl
  | .param name => simp only [Bindings.resolveOperand, h.get? name]
  | .convert l typeName => rfl
  | .list items => simp only [Bindings.resolveOperand, resolveItems h items]

theorem resolveItems (h : b.Alike c) (os : List Operand) : b.resolveItems convert os = c.resolveItems convert os := by
  match os with
  | [] => rfl
  | o :: os => simp only [Bindings.resolveItems, resolveOperand h o, resolveItems h os]

end

/-- No query tells alike bindings apart. -/
theorem resolve (h : b.Alike c) (q : Query Operand) (naming : Naming) :
    b.resolve q naming convert = c.resolve q naming convert := by
  have hsubstitution : b.substitution naming convert = c.substitution naming convert :=
    congrArg (Query.Substitution.mk naming.entity naming.field) (funext (resolveOperand convert h))
  rw [Bindings.resolve, Bindings.resolve, isAllBound, isAllBound, h.unbound, hsubstitution]

end Resolve

end Alike

theorem tryBind_comm (b : Bindings) {name other : String} (h : name ≠ other) (v w : Value) :
    ((b.tryBind name v).tryBind other w).Alike ((b.tryBind other w).tryBind name v) := by
  refine ⟨by simp only [tryBind_declared], fun x => ?_⟩
  simp only [tryBind_get?, isDeclared, tryBind_declared]
  -- The two are bound in different orders, so only what is read under a name is compared.
  by_cases hx : x = name
  · have hne : x ≠ other := fun ho => h (hx.symm.trans ho)
    simp [hne]
  · simp [hx]

end Bindings

/-- After any binds, that succeeded or not: the declared names are those of the query and
    differ, and the bound ones are among them and differ. A bind fails exactly for a name
    that is not declared, and changes nothing then. A name has the value of its last bind
    that succeeded, and those without one are left, in their order. The state says which
    are left and whether any succeeded, and only moves on. Two binds of different names
    may be made in either order. -/
theorem bindings_after (q : Query Operand) (history : List (String × Value)) :
    let fresh := Bindings.ofQuery q
    let b := fresh.bindAll history
    let done := fresh.accepted history
    b.declared = q.parameters ∧ b.declared.Nodup ∧ (∀ name ∈ b.names, name ∈ b.declared) ∧ b.names.Nodup ∧
    (∀ name value, (∃ e, b.bind name value = .error e) ↔ name ∉ b.declared) ∧
    (∀ name value e, b.bind name value = .error e →
      e = .illegalArgument (.undeclaredParameter name q.parameters) ∧ b.tryBind name value = b) ∧
    (∀ name, b.get? name = lastBound done name) ∧
    b.unbound = q.parameters.filter (· ∉ done.map (·.1)) ∧
    (b.state = .fullyBound ↔ b.unbound = []) ∧
    (b.state = .created ↔ b.unbound ≠ [] ∧ done = []) ∧
    (b.state = .partiallyBound ↔ b.unbound ≠ [] ∧ done ≠ []) ∧
    (∀ later, b.state.rank ≤ (b.bindAll later).state.rank) ∧
    (∀ name other v w, name ≠ other →
      let one := (b.tryBind name v).tryBind other w
      let two := (b.tryBind other w).tryBind name v
      one.Alike two ∧ one.state = two.state ∧ one.unbound = two.unbound ∧
        ∀ r naming (convert : Converter), one.resolve r naming convert = two.resolve r naming convert) := by
  intro fresh b done
  have hwell : b.WellFormed := (Bindings.wellFormed_ofQuery q).bindAll history
  have hdeclared : b.declared = q.parameters := Bindings.bindAll_declared fresh history
  have hget : ∀ name, b.get? name = lastBound done name := Bindings.get?_accepted q history
  -- Bound names are kept without their history, which has the same names, repeated perhaps.
  have hbound : ∀ name, name ∈ b.names ↔ name ∈ done.map (·.1) := fun name => by
    rw [← Decidable.not_iff_not, ← Bindings.get?_eq_none, hget, Bindings.lastBound_eq_none]
  have hnone : b.names = [] ↔ done = [] := by
    simp only [List.eq_nil_iff_forall_not_mem (l := b.names), hbound, ← List.eq_nil_iff_forall_not_mem, List.map_eq_nil_iff]
  refine ⟨hdeclared, hwell.declared_differ, hwell.names_declared, hwell.names_differ, fun name value => ?_,
    fun name value e he => ?_, hget, ?_, Bindings.state_eq_fullyBound, ?_, ?_, Bindings.rank_bindAll b, ?_⟩
  · simp [Bindings.bind_eq_error]
  · obtain ⟨hn, rfl⟩ := Bindings.bind_eq_error.mp he
    exact ⟨by rw [hdeclared], Bindings.tryBind_of_undeclared hn value⟩
  · rw [Bindings.unbound_eq, hdeclared]
    simp only [hbound]
  · rw [Bindings.state_eq_created, hnone]
  · rw [Bindings.state_eq_partiallyBound, ne_eq, ne_eq, hnone]
  · intro name other v w h one two
    have hsame : one.Alike two := b.tryBind_comm h v w
    exact ⟨hsame, hsame.state, hsame.unbound, fun r naming convert => hsame.resolve convert r naming⟩

/-- A name that is not declared, and then one that is bound twice. -/
theorem bindings_after_rebinding :
    let q : Query Operand := .get [.param "a", .param "b", .param "a"]
    let fresh := Bindings.ofQuery q
    let b := fresh.bindAll [("c", .null), ("a", .integer 1), ("a", .integer 2)]
    fresh.accepted [("c", .null), ("a", .integer 1), ("a", .integer 2)] = [("a", .integer 1), ("a", .integer 2)] ∧
      b.declared = ["a", "b"] ∧ b.get? "a" = some (.integer 2) ∧ b.unbound = ["b"] ∧ b.state = .partiallyBound ∧
      b.tryBind "c" .null = b ∧
      ((b.tryBind "b" .null).tryBind "a" .null).state = ((b.tryBind "a" .null).tryBind "b" .null).state := by
  intro q fresh b
  obtain ⟨hdeclared, -, -, -, -, hfails, hget, hunbound, -, -, hpartial, -, hcomm⟩ :=
    bindings_after q [("c", .null), ("a", .integer 1), ("a", .integer 2)]
  obtain ⟨-, hstate, -⟩ := hcomm "b" "a" .null .null (by decide)
  exact ⟨rfl, hdeclared, hget "a", hunbound, hpartial.mpr ⟨nofun, nofun⟩, (hfails "c" .null _ rfl).2, hstate⟩

end EntityQuery
