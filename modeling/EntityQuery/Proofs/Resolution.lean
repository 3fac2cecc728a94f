/-
  EntityQuery.Proofs.Resolution — what a query with bindings resolves to.

  (1) Bindings. After any sequence of binds a declared name has the value of its last
  one; binds of other names change nothing (`get?_bindAll`). Every name that an
  operand mentions is declared.

  (2) Operands. A resolved operand is what the operand denotes: a literal's value, a
  name's binding, a conversion's result, a list of what its items denote (`Denotes`).

  (3) Conversions. Resolving with a converter that is watched (`Asking`) shows which
  conversions are asked for: none as long as a declared name is unbound, and else those
  of the query in order, up to the first that fails.
-/

import EntityQuery.Bindings
import EntityQuery.Proofs.Substitution

namespace EntityQuery

/-! ## (1) Bindings -/

namespace Bindings

/-- The bindings after a bind, which may fail and change nothing. -/
def tryBind (b : Bindings) (name : String) (value : Value) : Bindings :=
  match b.bind name value with
  | .ok b' => b'
  | .error _ => b

/-- The bindings after one bind after the other. -/
def bindAll (b : Bindings) (history : List (String × Value)) : Bindings :=
  history.foldl (fun b bound => b.tryBind bound.1 bound.2) b

end Bindings

/-- What a name was bound to last. -/
def lastBound (history : List (String × Value)) (name : String) : Option Value := history.reverse.lookup name

namespace Bindings

variable (b : Bindings) (name : String) (value : Value)

theorem tryBind_declared : (b.tryBind name value).declared = b.declared := by
  unfold tryBind bind
  split
  · next h =>
    split at h
    · obtain rfl := Except.ok.inj h
      rfl
    · cases h
  · rfl

theorem lookup_bound_cons (bound : List (String × Value)) (other : String) :
    ((name, value) :: bound).lookup other = if other = name then some value else bound.lookup other := by
  by_cases h : other = name
  · simp [h]
  · have hne : (other == name) = false := beq_false_of_ne h
    simp [List.lookup_cons, hne, h]

theorem lookup_filter_names (p : String → Bool) (bound : List (String × Value)) :
    (bound.filter (p ·.1)).lookup name = if p name then bound.lookup name else none := by
  induction bound with
  | nil => simp
  | cons e bound ih =>
    obtain ⟨n, v⟩ := e
    simp only [List.filter_cons, lookup_bound_cons]
    by_cases hp : p n = true
    · rw [if_pos hp, lookup_bound_cons, ih]
      by_cases hn : name = n
      · rw [if_pos hn, if_pos hn, hn, if_pos hp]
      · rw [if_neg hn, if_neg hn]
    · rw [if_neg hp, ih]
      by_cases hn : name = n
      · rw [hn, if_neg hp, if_neg hp]
      · rw [if_neg hn]

theorem lookup_filter_ne {bound : List (String × Value)} {other : String} (h : other ≠ name) :
    (bound.filter (·.1 != name)).lookup other = bound.lookup other := by
  rw [lookup_filter_names other (· != name), if_pos (by simpa using h)]

theorem tryBind_get? (other : String) :
    (b.tryBind name value).get? other = if b.isDeclared name ∧ other = name then some value else b.get? other := by
  unfold tryBind bind
  by_cases hd : b.isDeclared name
  · simp only [hd, if_true, true_and, get?, lookup_bound_cons]
    split
    · rfl
    · next ho => exact lookup_filter_ne name ho
  · simp [hd]

theorem bindAll_declared (history : List (String × Value)) : (b.bindAll history).declared = b.declared := by
  induction history generalizing b with
  | nil => rfl
  | cons e history ih => exact (ih _).trans (tryBind_declared b e.1 e.2)

/-- A declared name has the value of its last bind. -/
theorem get?_bindAll (history : List (String × Value)) :
    (b.bindAll history).get? name =
      if b.isDeclared name then (lastBound history name).or (b.get? name) else b.get? name := by
  induction history generalizing b with
  | nil => simp [bindAll, lastBound]
  | cons e history ih =>
    obtain ⟨n, v⟩ := e
    have hd : (b.tryBind n v).isDeclared name = b.isDeclared name := by
      simp only [isDeclared, tryBind_declared]
    have h := ih (b.tryBind n v)
    rw [hd, tryBind_get?] at h
    have hl : lastBound ((n, v) :: history) name = (lastBound history name).or (if name = n then some v else none) := by
      simp only [lastBound, List.reverse_cons, List.lookup_append, lookup_bound_cons, List.lookup_nil]
    show ((b.tryBind n v).bindAll history).get? name = _
    rw [h, hl]
    by_cases hn : name = n
    · subst hn
      by_cases hdecl : b.isDeclared name <;> simp [hdecl]
    · simp [hn]

theorem get?_bindAll_ofQuery {q : Query Operand} {name : String} (hn : name ∈ q.parameters)
    (history : List (String × Value)) :
    ((ofQuery q).bindAll history).get? name = lastBound history name := by
  have hd : (ofQuery q).isDeclared name = true := by simpa [isDeclared, ofQuery] using hn
  have hnone : (ofQuery q).get? name = none := rfl
  rw [get?_bindAll, if_pos hd, hnone, Option.or_none]

theorem mem_unbound : name ∈ b.unbound ↔ name ∈ b.declared ∧ b.get? name = none := by
  simp [unbound]

theorem isAllBound_iff : b.isAllBound = true ↔ ∀ name ∈ b.declared, ∃ v, b.get? name = some v := by
  simp [isAllBound, unbound, List.filter_eq_nil_iff, ← Option.ne_none_iff_exists']

end Bindings

/-! ## (2) Operands -/

theorem Query.mem_distinct {name : String} {names : List String} : name ∈ distinct names ↔ name ∈ names := by
  induction names with
  | nil => rfl
  | cons n names ih =>
    simp only [distinct, List.mem_cons, List.mem_filter, ih]
    by_cases h : name = n <;> simp [h]

theorem Query.nodup_distinct (names : List String) : (distinct names).Nodup := by
  induction names with
  | nil => exact List.nodup_nil
  | cons n names ih =>
    refine List.nodup_cons.mpr ⟨fun h => ?_, ih.filter _⟩
    simpa using (List.mem_filter.mp h).2

theorem Operand.itemParams_eq_flatMap (os : List Operand) : itemParams os = os.flatMap params := by
  induction os with
  | nil => rfl
  | cons o os ih => simp [itemParams, ih]

/-- The names that the operands of a query mention are its parameters. -/
theorem Query.mem_itemParams {q : Query Operand} {name : String} :
    name ∈ Operand.itemParams q.values ↔ name ∈ q.parameters := by
  rw [Operand.itemParams_eq_flatMap, parameters, mem_distinct]

mutual

/-- What an operand stands for, where parameters are bound and literals converted. -/
inductive Denotes (bound : String → Option Value) (convert : Converter) : Operand → Value → Prop
  | literal (l : Literal) : Denotes bound convert (.literal l) l.toValue
  | param {name : String} {v : Value} : bound name = some v → Denotes bound convert (.param name) v
  | convert {l : Literal} {typeName : String} {v : Value} : convert l.toValue typeName = .ok v →
      Denotes bound convert (.convert l typeName) v
  | list {items : List Operand} {vs : List Value} : DenoteAll bound convert items vs →
      Denotes bound convert (.list items) (.array vs)

/-- Operands and what they stand for, one by one. -/
inductive DenoteAll (bound : String → Option Value) (convert : Converter) : List Operand → List Value → Prop
  | nil : DenoteAll bound convert [] []
  | cons {o : Operand} {v : Value} {os : List Operand} {vs : List Value} : Denotes bound convert o v →
      DenoteAll bound convert os vs → DenoteAll bound convert (o :: os) (v :: vs)

end

section Unique

variable {bound bound' : String → Option Value} {convert : Converter}

mutual

/-- An operand denotes one value at most, and it depends on the names it mentions alone. -/
theorem Denotes.unique {o : Operand} {v v' : Value} (hb : ∀ name ∈ o.params, bound name = bound' name)
    (h : Denotes bound convert o v) (h' : Denotes bound' convert o v') : v = v' := by
  cases h with
  | literal l =>
    cases h'
    rfl
  | @param name v hv =>
    cases h' with
    | param hv' =>
      rw [hb name (by simp [Operand.params]), hv'] at hv
      exact (Option.some.inj hv).symm
  | convert hv =>
    cases h' with
    | convert hv' => exact Except.ok.inj (hv.symm.trans hv')
  | list hvs =>
    cases h' with
    | list hvs' => rw [hvs.unique (fun name hn => hb name (by simpa [Operand.params] using hn)) hvs']

theorem DenoteAll.unique {os : List Operand} {vs vs' : List Value}
    (hb : ∀ name ∈ Operand.itemParams os, bound name = bound' name) (h : DenoteAll bound convert os vs)
    (h' : DenoteAll bound' convert os vs') : vs = vs' := by
  cases h with
  | nil =>
    cases h'
    rfl
  | cons hv hvs =>
    cases h' with
    | cons hv' hvs' =>
      rw [hv.unique (fun name hn => hb name (by simp [Operand.itemParams, hn])) hv',
        hvs.unique (fun name hn => hb name (by simp [Operand.itemParams, hn])) hvs']

end

end Unique

namespace Bindings

variable {b : Bindings} {bound : String → Option Value} {convert : Converter}

mutual

theorem resolveOperand_eq_ok (o : Operand) (v : Value) (hb : ∀ name ∈ o.params, b.get? name = bound name) :
    b.resolveOperand convert o = .ok v ↔ Denotes bound convert o v := by
  match o with
  | .literal l =>
    rw [resolveOperand]
    constructor
    · intro h
      obtain rfl := Except.ok.inj h
      exact .literal l
    · intro h
      cases h
      rfl
  | .param name =>
    have hname : b.get? name = bound name := hb name (by simp [Operand.params])
    rw [resolveOperand]
    constructor
    · intro h
      cases hg : b.get? name with
      | none => rw [hg] at h; cases h
      | some w =>
        rw [hg] at h
        obtain rfl := Except.ok.inj h
        exact .param (hname.symm.trans hg)
    · intro h
      cases h with
      | param h => rw [hname, h]; rfl
  | .convert l typeName =>
    rw [resolveOperand]
    constructor
    · intro h
      exact .convert h
    · intro h
      cases h with
      | convert h => exact h
  | .list items =>
    have hi := fun vs => resolveItems_eq_ok items vs fun name hn => hb name (by simpa [Operand.params] using hn)
    rw [resolveOperand, except_bind_eq_ok]
    constructor
    · intro ⟨vs, hvs, h⟩
      obtain rfl := Except.ok.inj h
      exact .list ((hi vs).mp hvs)
    · intro h
      cases h with
      | @list _ vs h => exact ⟨vs, (hi vs).mpr h, rfl⟩

theorem resolveItems_eq_ok (os : List Operand) (vs : List Value)
    (hb : ∀ name ∈ Operand.itemParams os, b.get? name = bound name) :
    b.resolveItems convert os = .ok vs ↔ DenoteAll bound convert os vs := by
  match os with
  | [] =>
    rw [resolveItems]
    constructor
    · intro h
      obtain rfl := Except.ok.inj h
      exact .nil
    · intro h
      cases h
      rfl
  | o :: os =>
    have ho := fun v => resolveOperand_eq_ok o v fun name hn => hb name (by simp [Operand.itemParams, hn])
    have hos := fun vs => resolveItems_eq_ok os vs fun name hn => hb name (by simp [Operand.itemParams, hn])
    rw [resolveItems, except_bind_eq_ok]
    constructor
    · intro ⟨v, hv, h⟩
      obtain ⟨ws, hws, h⟩ := except_bind_eq_ok.mp h
      obtain rfl := Except.ok.inj h
      exact .cons ((ho v).mp hv) ((hos ws).mp hws)
    · intro h
      cases h with
      | @cons _ v _ ws hv hws =>
        exact ⟨v, (ho v).mpr hv, except_bind_eq_ok.mpr ⟨ws, (hos ws).mpr hws, rfl⟩⟩

end

theorem resolveItems_eq_substituteAll {m : Type → Type} [Monad m] [MonadExcept QueryError m] (convert : Converter m)
    (os : List Operand) : b.resolveItems convert os = Query.substituteAll (b.resolveOperand convert) os := by
  induction os with
  | nil => rfl
  | cons o os ih => simp only [resolveItems, Query.substituteAll, ih]

end Bindings

/-! ## (3) Conversions -/

mutual

/-- The conversions that an operand asks for, in order. -/
def Operand.conversions : Operand → List (Value × String)
  | .literal _ => []
  | .param _ => []
  | .convert l typeName => [(l.toValue, typeName)]
  | .list items => Operand.itemConversions items

def Operand.itemConversions : List Operand → List (Value × String)
  | [] => []
  | o :: os => o.conversions ++ Operand.itemConversions os

end

def Query.conversions (q : Query Operand) : List (Value × String) := Operand.itemConversions q.values

def convertAll {m : Type → Type} [Monad m] (convert : Converter m) : List (Value × String) → m (List Value) :=
  Query.substituteAll fun c => convert c.1 c.2

namespace Bindings

section Conversions

variable {m : Type → Type} [Monad m] [LawfulMonad m] [MonadExcept QueryError m] {b : Bindings} (convert : Converter m)

mutual

/-- Apart from its result, resolving an operand is making its conversions. -/
theorem resolveOperand_conversions (o : Operand) (hb : ∀ name ∈ o.params, ∃ v, b.get? name = some v) :
    (fun _ => ()) <$> b.resolveOperand convert o = (fun _ => ()) <$> convertAll convert o.conversions := by
  match o with
  | .literal l => simp [resolveOperand, convertAll, Query.substituteAll, Operand.conversions]
  | .param name =>
    obtain ⟨v, hv⟩ := hb name (by simp [Operand.params])
    simp [resolveOperand, convertAll, Query.substituteAll, Operand.conversions, hv]
  | .convert l typeName => simp [resolveOperand, convertAll, Query.substituteAll, Operand.conversions]
  | .list items =>
    have h := resolveItems_conversions items fun name hn => hb name (by simpa [Operand.params] using hn)
    simpa [resolveOperand, Operand.conversions] using h

theorem resolveItems_conversions (os : List Operand)
    (hb : ∀ name ∈ Operand.itemParams os, ∃ v, b.get? name = some v) :
    (fun _ => ()) <$> b.resolveItems convert os =
      (fun _ => ()) <$> convertAll convert (Operand.itemConversions os) := by
  match os with
  | [] => simp [resolveItems, convertAll, Query.substituteAll, Operand.itemConversions]
  | o :: os =>
    have ho := bind_eq_of_map_eq
      (resolveOperand_conversions o fun name hn => hb name (by simp [Operand.itemParams, hn]))
      fun u => (fun _ => u) <$> convertAll convert (Operand.itemConversions os)
    have hos := resolveItems_conversions os fun name hn => hb name (by simp [Operand.itemParams, hn])
    simpa [resolveItems, Operand.itemConversions, convertAll, Query.substituteAll_append, hos] using ho

end

/-- Apart from its result, resolving a query is making its conversions, once all its
    parameters are bound. -/
theorem resolve_conversions {q : Query Operand} (naming : Naming) (hb : b.isAllBound = true)
    (hd : b.declared = q.parameters) :
    (fun _ => ()) <$> b.resolve q naming convert = (fun _ => ()) <$> convertAll convert q.conversions := by
  have hbound : ∀ name ∈ Operand.itemParams q.values, ∃ v, b.get? name = some v := by
    intro name hn
    refine (isAllBound_iff b).mp hb name ?_
    rw [hd]
    exact Query.mem_itemParams.mp hn
  have hp := congrArg (Functor.map fun _ => ()) (Query.substitute_parts (b.substitution naming convert) q)
  rw [resolve, if_pos hb, Query.conversions, ← resolveItems_conversions convert q.values hbound,
    resolveItems_eq_substituteAll]
  simpa [substitution] using hp

end Conversions

end Bindings

/-! ## Conversions that are watched -/

/-- What may fail, and the conversions that were asked for on the way. -/
@[ext] structure Asking (α : Type) where
  outcome : Except QueryError α
  asked : List (Value × String)

namespace Asking

instance : Monad Asking where
  pure a := ⟨.ok a, []⟩
  bind x f :=
    match x.outcome with
    | .ok a => ⟨(f a).outcome, x.asked ++ (f a).asked⟩
    | .error e => ⟨.error e, x.asked⟩

instance : MonadExcept QueryError Asking where
  throw e := ⟨.error e, []⟩
  tryCatch x f :=
    match x.outcome with
    | .ok _ => x
    | .error e => ⟨(f e).outcome, x.asked ++ (f e).asked⟩

variable {α β γ : Type}

theorem ok_bind (a : α) (asked : List (Value × String)) (f : α → Asking β) :
    (⟨.ok a, asked⟩ : Asking α) >>= f = ⟨(f a).outcome, asked ++ (f a).asked⟩ := rfl

theorem map_id (x : Asking α) : id <$> x = x := by
  obtain ⟨outcome, asked⟩ := x
  show (⟨outcome, asked⟩ : Asking α) >>= pure = _
  cases outcome with
  | ok a => exact congrArg (Asking.mk (.ok a)) (List.append_nil asked)
  | error e => rfl

theorem bind_assoc (x : Asking α) (f : α → Asking β) (g : β → Asking γ) :
    x >>= f >>= g = x >>= fun a => f a >>= g := by
  obtain ⟨outcome, asked⟩ := x
  cases outcome with
  | ok a =>
    rw [ok_bind, ok_bind]
    obtain ⟨outcome', asked'⟩ := f a
    cases outcome' with
    | ok b => simp [ok_bind]
    | error e => rfl
  | error e => rfl

instance : LawfulMonad Asking := .mk' Asking map_id (fun _ _ => rfl) bind_assoc

@[simp] theorem outcome_pure (a : α) : (pure a : Asking α).outcome = .ok a := rfl

@[simp] theorem asked_pure (a : α) : (pure a : Asking α).asked = [] := rfl

@[simp] theorem outcome_bind (x : Asking α) (f : α → Asking β) :
    (x >>= f).outcome = x.outcome >>= fun a => (f a).outcome := by
  obtain ⟨outcome, asked⟩ := x
  cases outcome <;> rfl

@[simp] theorem outcome_map (x : Asking α) (f : α → β) : (f <$> x).outcome = f <$> x.outcome := by
  obtain ⟨outcome, asked⟩ := x
  cases outcome <;> rfl

@[simp] theorem asked_map (x : Asking α) (f : α → β) : (f <$> x).asked = x.asked := by
  obtain ⟨outcome, asked⟩ := x
  cases outcome with
  | ok a => exact List.append_nil asked
  | error e => rfl

end Asking

/-- Asks another converter, under watch. -/
def Converter.watched (convert : Converter) : Converter Asking :=
  fun v typeName => ⟨convert v typeName, [(v, typeName)]⟩

theorem convertAll_watched_ok (convert : Converter) {cs : List (Value × String)}
    (h : ∀ c ∈ cs, ∃ v, convert c.1 c.2 = .ok v) : ∃ vs, convertAll convert.watched cs = ⟨.ok vs, cs⟩ := by
  induction cs with
  | nil => exact ⟨[], rfl⟩
  | cons c cs ih =>
    obtain ⟨v, hv⟩ := h c List.mem_cons_self
    obtain ⟨vs, hvs⟩ := ih fun d hd => h d (List.mem_cons_of_mem _ hd)
    have hc : convert.watched c.1 c.2 = ⟨.ok v, [c]⟩ := by rw [Converter.watched, hv]
    refine ⟨v :: vs, ?_⟩
    rw [convertAll] at hvs ⊢
    simp only [Query.substituteAll, hc, hvs, Asking.ok_bind, Asking.outcome_pure, Asking.asked_pure, List.append_nil]
    rfl

theorem convertAll_watched_error (convert : Converter) {before after : List (Value × String)} {c : Value × String}
    {e : QueryError} (h : ∀ d ∈ before, ∃ v, convert d.1 d.2 = .ok v) (hc : convert c.1 c.2 = .error e) :
    convertAll convert.watched (before ++ c :: after) = ⟨.error e, before ++ [c]⟩ := by
  obtain ⟨vs, hvs⟩ := convertAll_watched_ok convert h
  have hw : convert.watched c.1 c.2 = ⟨.error e, [c]⟩ := by rw [Converter.watched, hc]
  rw [convertAll] at hvs ⊢
  rw [Query.substituteAll_append, hvs, Asking.ok_bind]
  simp only [Query.substituteAll, hw]
  rfl

/-- Where not all conversions succeed, there is a first one that fails. -/
theorem exists_first_failure (convert : Converter) {cs : List (Value × String)}
    (h : ¬ ∀ c ∈ cs, ∃ v, convert c.1 c.2 = .ok v) :
    ∃ before c after e, cs = before ++ c :: after ∧ (∀ d ∈ before, ∃ v, convert d.1 d.2 = .ok v) ∧
      convert c.1 c.2 = .error e := by
  induction cs with
  | nil => exact absurd (by simp) h
  | cons c cs ih =>
    cases hc : convert c.1 c.2 with
    | error e => exact ⟨[], c, cs, e, rfl, by simp, hc⟩
    | ok v =>
      have hcs : ¬ ∀ d ∈ cs, ∃ v, convert d.1 d.2 = .ok v := by
        intro hall
        refine h fun d hd => ?_
        rcases List.mem_cons.mp hd with rfl | hd
        · exact ⟨v, hc⟩
        · exact hall d hd
      obtain ⟨before, d, after, e, rfl, hbefore, he⟩ := ih hcs
      refine ⟨c :: before, d, after, e, rfl, ?_, he⟩
      intro x hx
      rcases List.mem_cons.mp hx with rfl | hx
      · exact ⟨v, hc⟩
      · exact hbefore x hx

namespace Bindings

variable {b : Bindings} (convert : Converter)

mutual

theorem resolveOperand_outcome (o : Operand) :
    (b.resolveOperand convert.watched o).outcome = b.resolveOperand convert o := by
  match o with
  | .literal l => rfl
  | .param name =>
    simp only [resolveOperand]
    cases b.get? name <;> rfl
  | .convert l typeName => rfl
  | .list items => simp [resolveOperand, resolveItems_outcome items, pure, Except.pure]

theorem resolveItems_outcome (os : List Operand) :
    (b.resolveItems convert.watched os).outcome = b.resolveItems convert os := by
  match os with
  | [] => rfl
  | o :: os => simp [resolveItems, resolveOperand_outcome o, resolveItems_outcome os, pure, Except.pure]

end

/-- Watching a converter changes nothing. -/
theorem resolve_outcome (q : Query Operand) (naming : Naming) :
    (b.resolve q naming convert.watched).outcome = b.resolve q naming convert := by
  unfold resolve
  split
  · have hw := congrArg Asking.outcome (Query.substitute_parts (b.substitution naming convert.watched) q)
    have hp := Query.substitute_parts (b.substitution naming convert) q
    refine except_map_injective Query.parts_injective ?_
    simp only [substitution, ← resolveItems_eq_substituteAll, Asking.outcome_map, resolveItems_outcome] at hw hp
    exact hw.trans hp.symm
  · rfl

/-- Under watch, a query with all parameters bound fails as its conversions do, and
    asks for the same ones. -/
theorem resolve_watched {q : Query Operand} (naming : Naming) (hb : b.isAllBound = true)
    (hd : b.declared = q.parameters) :
    (b.resolve q naming convert.watched).asked = (convertAll convert.watched q.conversions).asked ∧
      (fun _ => ()) <$> b.resolve q naming convert =
        (fun _ => ()) <$> (convertAll convert.watched q.conversions).outcome := by
  have h := resolve_conversions convert.watched naming hb hd
  constructor
  · simpa using congrArg Asking.asked h
  · simpa [resolve_outcome] using congrArg Asking.outcome h

theorem isAllBound_bindAll (q : Query Operand) (history : List (String × Value)) :
    ((ofQuery q).bindAll history).isAllBound = true ↔ ∀ name ∈ q.parameters, ∃ v, lastBound history name = some v := by
  rw [isAllBound_iff, bindAll_declared]
  refine forall_congr' fun name => forall_congr' fun hn => ?_
  rw [get?_bindAll_ofQuery hn history]

theorem resolve_eq_ok {bound : String → Option Value} {q : Query Operand} {naming : Naming} {r : Query Value}
    (hb : b.isAllBound = true) (hbound : ∀ name ∈ Operand.itemParams q.values, b.get? name = bound name) :
    b.resolve q naming convert = .ok r ↔
      r.shape = q.map naming (fun _ => ()) ∧ DenoteAll bound convert q.values r.values := by
  rw [resolve, if_pos hb, Query.substitute_eq_ok]
  simp only [substitution, ← resolveItems_eq_substituteAll, resolveItems_eq_ok q.values r.values hbound]
  rfl

theorem resolve_of_unbound {m : Type → Type} [Monad m] [MonadExcept QueryError m] (convert : Converter m)
    {name : String} (q : Query Operand) (naming : Naming) (h : name ∈ b.unbound) :
    b.resolve q naming convert = throw (.query (.parametersLeft b.unbound)) := by
  have hb : ¬ b.isAllBound = true := by
    intro hall
    rw [isAllBound, List.isEmpty_iff] at hall
    rw [hall] at h
    cases h
  rw [resolve, if_neg hb]

variable {q : Query Operand} {naming : Naming}

theorem resolve_of_conversions (hb : b.isAllBound = true) (hd : b.declared = q.parameters)
    (h : ∀ c ∈ q.conversions, ∃ v, convert c.1 c.2 = .ok v) :
    (∃ r, b.resolve q naming convert = .ok r) ∧ (b.resolve q naming convert.watched).asked = q.conversions := by
  obtain ⟨hasked, houtcome⟩ := resolve_watched convert naming hb hd
  obtain ⟨vs, hvs⟩ := convertAll_watched_ok convert h
  rw [hvs] at hasked houtcome
  refine ⟨?_, hasked⟩
  cases hr : b.resolve q naming convert with
  | ok r => exact ⟨r, rfl⟩
  | error e => rw [hr] at houtcome; cases houtcome

theorem resolve_of_failure (hb : b.isAllBound = true) (hd : b.declared = q.parameters)
    {before after : List (Value × String)} {c : Value × String} {e : QueryError}
    (hq : q.conversions = before ++ c :: after) (h : ∀ d ∈ before, ∃ v, convert d.1 d.2 = .ok v)
    (hc : convert c.1 c.2 = .error e) : b.resolve q naming convert.watched = ⟨.error e, before ++ [c]⟩ := by
  obtain ⟨hasked, houtcome⟩ := resolve_watched convert naming hb hd
  rw [hq, convertAll_watched_error convert h hc] at hasked houtcome
  have hw := resolve_outcome (b := b) convert q naming
  cases hr : b.resolve q naming convert with
  | ok r => rw [hr] at houtcome; cases houtcome
  | error e' =>
    rw [hr] at houtcome hw
    obtain rfl := Except.error.inj houtcome
    exact Asking.ext hw hasked

/-- A query resolves exactly when its parameters are bound and its conversions succeed. -/
theorem resolve_succeeds_iff (hd : b.declared = q.parameters) : (∃ r, b.resolve q naming convert = .ok r) ↔
    b.isAllBound = true ∧ ∀ c ∈ q.conversions, ∃ v, convert c.1 c.2 = .ok v := by
  constructor
  · intro ⟨r, hr⟩
    by_cases hb : b.isAllBound = true
    · refine ⟨hb, ?_⟩
      apply Classical.byContradiction
      intro hc
      obtain ⟨before, c, after, e, hq, hbefore, he⟩ := exists_first_failure convert hc
      have hw : (b.resolve q naming convert.watched).outcome = .error e :=
        congrArg Asking.outcome (resolve_of_failure convert hb hd hq hbefore he)
      rw [resolve_outcome, hr] at hw
      cases hw
    · rw [resolve, if_neg hb] at hr
      cases hr
  · intro ⟨hb, hc⟩
    exact (resolve_of_conversions convert hb hd hc).1

end Bindings

/-- After any binds, a query resolves exactly when its parameters are bound and its
    conversions succeed: to the query of the renamed shape whose operands are what its
    own denote. It asks for no conversion while a parameter is unbound, and for none
    behind the first that fails, whose error is the outcome. -/
theorem resolve_after_binds (q : Query Operand) (history : List (String × Value)) (naming : Naming)
    (convert : Converter) :
    let b := (Bindings.ofQuery q).bindAll history
    let resolved := b.resolve q naming convert
    let watched := b.resolve q naming convert.watched
    watched.outcome = resolved ∧
    (∀ name ∈ q.parameters, lastBound history name = none →
      name ∈ b.unbound ∧ watched = ⟨.error (.query (.parametersLeft b.unbound)), []⟩) ∧
    ((∀ name ∈ q.parameters, ∃ v, lastBound history name = some v) →
      (∀ name ∈ Operand.itemParams q.values, ∃ v, b.get? name = some v) ∧
      (∀ r, resolved = .ok r ↔
        r.shape = q.map naming (fun _ => ()) ∧ DenoteAll (lastBound history) convert q.values r.values) ∧
      ((∃ r, resolved = .ok r) ↔ ∀ c ∈ q.conversions, ∃ v, convert c.1 c.2 = .ok v) ∧
      ((∀ c ∈ q.conversions, ∃ v, convert c.1 c.2 = .ok v) → watched.asked = q.conversions) ∧
      (∀ before c after e, q.conversions = before ++ c :: after → (∀ d ∈ before, ∃ v, convert d.1 d.2 = .ok v) →
        convert c.1 c.2 = .error e → watched = ⟨.error e, before ++ [c]⟩)) := by
  intro b resolved watched
  have houtcome : watched.outcome = resolved := Bindings.resolve_outcome convert q naming
  have hd : b.declared = q.parameters := Bindings.bindAll_declared _ history
  have hget : ∀ name ∈ q.parameters, b.get? name = lastBound history name :=
    fun name hn => Bindings.get?_bindAll_ofQuery hn history
  refine ⟨houtcome, ?_, ?_⟩
  · intro name hn hnone
    have hu : name ∈ b.unbound := by
      rw [Bindings.mem_unbound, hd, hget name hn]
      exact ⟨hn, hnone⟩
    exact ⟨hu, Bindings.resolve_of_unbound convert.watched q naming hu⟩
  · intro hall
    have hb : b.isAllBound = true := (Bindings.isAllBound_bindAll q history).mpr hall
    have hitems : ∀ name ∈ Operand.itemParams q.values, b.get? name = lastBound history name :=
      fun name hn => hget name (Query.mem_itemParams.mp hn)
    refine ⟨?_, fun r => Bindings.resolve_eq_ok convert hb hitems, ?_, ?_, ?_⟩
    · intro name hn
      rw [hitems name hn]
      exact hall name (Query.mem_itemParams.mp hn)
    · exact (Bindings.resolve_succeeds_iff convert hd).trans (and_iff_right hb)
    · intro h
      exact (Bindings.resolve_of_conversions convert hb hd h).2
    · intro before c after e hq hbefore he
      exact Bindings.resolve_of_failure convert hb hd hq hbefore he

theorem resolve_after_binds_get :
    let q : Query Operand := .get [.param "id", .convert (.string "x") "String"]
    let kept : Converter := fun v _ => .ok v
    let refused : Converter := fun _ typeName => .error (.missingArgument typeName)
    let b := (Bindings.ofQuery q).bindAll [("id", .null)]
    (∃ r, b.resolve q .identity kept = .ok r ∧ DenoteAll (lastBound [("id", .null)]) kept q.values r.values) ∧
      b.resolve q .identity refused.watched = ⟨.error (.missingArgument "String"), [(.string "x", "String")]⟩ ∧
      (((Bindings.ofQuery q).bindAll []).resolve q .identity kept.watched).asked = [] := by
  intro q kept refused b
  have hbound : ∀ name ∈ q.parameters, ∃ v, lastBound [("id", .null)] name = some v := by
    intro name hn
    obtain rfl : name = "id" := List.mem_singleton.mp hn
    exact ⟨.null, rfl⟩
  obtain ⟨-, hok, hsucceeds, -⟩ := (resolve_after_binds q [("id", .null)] .identity kept).2.2 hbound
  obtain ⟨-, -, -, -, hfirst⟩ := (resolve_after_binds q [("id", .null)] .identity refused).2.2 hbound
  obtain ⟨-, hunbound⟩ := (resolve_after_binds q [] .identity kept).2.1 "id" List.mem_cons_self rfl
  obtain ⟨r, hr⟩ := hsucceeds.mpr fun c _ => ⟨c.1, rfl⟩
  refine ⟨⟨r, hr, ((hok r).mp hr).2⟩, hfirst [] _ [] _ rfl nofun rfl, ?_⟩
  rw [hunbound]

end EntityQuery
