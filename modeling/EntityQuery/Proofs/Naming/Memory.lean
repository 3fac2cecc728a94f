/-
  EntityQuery.Proofs.Naming.Memory — what an observer remembers shows in none of its
  answers (`memory_invisible`).

  (1) Calls. An observer is asked for the native names of entities and fields, and for
  the resolver of an entity; a registry without memory answers the same calls.

  (2) Memory. A resolver that has been asked for some fields remembers each of them
  once, with the answer its table gives (`FieldCache.field_after`). An observer holds a
  resolver for every entity name of its registry, as the calls on that name have left
  it (`Remembers`); every call keeps this (`Remembers.call`), so any run does.

  (3) A single table. An observer of one table answers what the table's own resolver
  answers (`alike_call`).
-/

import EntityQuery.Naming.Observer
import Mathlib.Data.List.Nodup

namespace EntityQuery.Naming

/-! ## (1) Calls -/

/-- What any naming can be asked. -/
inductive Question where
  | entity (name : String)
  | field (entity name : String)

/-- What an observer over a registry can be asked. -/
inductive Call where
  | ask (q : Question)
  | resolver (entity : String)

/-- A native name, or the table behind an entity's name, if there is one. -/
inductive Answer where
  | native (name : String)
  | table (mapping? : Option EntityMapping)

/-- Makes one call after the other. -/
def runAll {σ α β : Type} (step : σ → α → β × σ) (s : σ) : List α → List β × σ
  | [] => ([], s)
  | a :: as =>
    let (b, s) := step s a
    let (bs, s) := runAll step s as
    (b :: bs, s)

def Observer.call (o : Observer) : Call → Answer × Observer
  | .ask (.entity name) => (.native (o.entity name), o)
  | .ask (.field entity name) => (.native (o.field entity name).1, (o.field entity name).2)
  | .resolver entity => (.table ((o.resolver entity).1.map (·.mapping)), (o.resolver entity).2)

def Observer.run (o : Observer) (calls : List Call) : List Answer × Observer := runAll Observer.call o calls

/-- A resolver on its own can be asked what any naming can. -/
def FieldCache.ask (c : FieldCache) : Question → String × FieldCache
  | .entity name => ((ofMapping c.mapping).entity name, c)
  | .field entity name => c.fieldOf entity name

def FieldCache.run (c : FieldCache) (questions : List Question) : List String × FieldCache :=
  runAll FieldCache.ask c questions

/-- The answer without a memory: a name is looked up, and a field is given to a fresh
    resolver. What is not found passes through. -/
def Registry.answer (r : Registry) : Call → Answer
  | .ask (.entity name) => .native (((r.find? name).map (·.native)).getD name)
  | .ask (.field entity name) => .native (((r.find? entity).map fun m => ((FieldCache.fresh m).field name).1).getD name)
  | .resolver entity => .table (r.find? entity)

/-- The fields a call asks for under an entity's name. -/
def Call.fields (entity : String) : Call → List String
  | .ask (.field e name) => if e = entity then [name] else []
  | _ => []

def fieldsAsked (entity : String) (calls : List Call) : List String := calls.flatMap (Call.fields entity)

theorem fieldsAsked_concat (entity : String) (calls : List Call) (c : Call) :
    fieldsAsked entity (calls ++ [c]) = fieldsAsked entity calls ++ c.fields entity := by
  simp [fieldsAsked]

/-- Where every call is answered as it should be and keeps what is known of the calls so
    far, so does a run. -/
theorem runAll_of_step {σ α β : Type} {step : σ → α → β × σ} {answer : α → β} {After : List α → σ → Prop}
    (hstep : ∀ {s done} (a : α), After done s → (step s a).1 = answer a ∧ After (done ++ [a]) (step s a).2)
    {s : σ} {done : List α} (h : After done s) (as : List α) :
    (runAll step s as).1 = as.map answer ∧ After (done ++ as) (runAll step s as).2 := by
  induction as generalizing s done with
  | nil => exact ⟨rfl, by rwa [List.append_nil]⟩
  | cons a as ih =>
    obtain ⟨hanswer, hnext⟩ := hstep a h
    obtain ⟨hanswers, hlast⟩ := ih hnext
    rw [List.append_assoc] at hlast
    exact ⟨congrArg₂ List.cons hanswer hanswers, hlast⟩

/-! ## (2) Memory -/

namespace FieldCache

/-- A resolver after it was asked for some fields. -/
def after (m : EntityMapping) (asked : List String) : FieldCache :=
  ⟨m, asked.eraseDups.reverse.map fun name => (name, m.nativeField name)⟩

theorem size_after (m : EntityMapping) (asked : List String) : (after m asked).size = asked.eraseDups.length := by
  simp [size, after]

theorem lookup_after (m : EntityMapping) (asked : List String) (name : String) :
    (after m asked).answers.lookup name = if name ∈ asked then some (m.nativeField name) else none := by
  have hlookup : ∀ names : List String, (names.map fun n => (n, m.nativeField n)).lookup name =
      if name ∈ names then some (m.nativeField name) else none := by
    intro names
    induction names with
    | nil => rfl
    | cons n names ih =>
      rw [List.map_cons, List.lookup_cons, ih]
      by_cases hn : name = n
      · simp [hn]
      · simp [hn, beq_false_of_ne hn]
  simpa [after] using hlookup asked.eraseDups.reverse

/-- A field that was not asked for before is remembered, and every answer is the table's. -/
theorem field_after (m : EntityMapping) (asked : List String) (name : String) :
    (after m asked).field name = (m.nativeField name, after m (asked ++ [name])) := by
  unfold field
  rw [lookup_after]
  by_cases hname : name ∈ asked
  · have hsame : (asked ++ [name]).eraseDups = asked.eraseDups := by
      simp [List.eraseDups_append, List.removeAll, hname]
    rw [if_pos hname, after, after, hsame]
  · have hnew : (asked ++ [name]).eraseDups = asked.eraseDups ++ [name] := by
      simp [List.eraseDups_append, List.removeAll, hname, List.eraseDups_cons]
    rw [if_neg hname, after, after, hnew, List.reverse_concat, List.map_cons]

end FieldCache

namespace Observer

theorem lookup_replaced (e e' : String) (c : FieldCache) (caches : List (String × FieldCache)) :
    (caches.map fun x => if x.1 == e then (e, c) else x).lookup e' =
      if e' = e then (caches.lookup e).map fun _ => c else caches.lookup e' := by
  induction caches with
  | nil => simp
  | cons x caches ih =>
    obtain ⟨k, d⟩ := x
    rw [List.map_cons, List.lookup_cons, List.lookup_cons, List.lookup_cons, ih]
    by_cases hk : k = e
    · by_cases he : e' = e
      · simp [hk, he]
      · simp [hk, he, beq_false_of_ne he]
    · by_cases he : e' = e
      · simp [hk, he, beq_false_of_ne (Ne.symm hk)]
      · simp [hk, he]

theorem cache?_remember (o : Observer) (e e' : String) (c : FieldCache) :
    (o.remember e c).cache? e' = if e' = e then some c else o.cache? e' := by
  have hlookup : (o.remember e c).caches.lookup e' = if e' = e then some c else o.caches.lookup e' := by
    unfold remember
    split
    · next hany =>
      obtain ⟨x, hx, hkey⟩ := List.any_eq_true.mp hany
      have hfound : o.caches.lookup e ≠ none := fun hnone => by
        have hne := List.lookup_eq_none_iff.mp hnone x hx
        rw [beq_iff_eq.mp hkey] at hne
        simp at hne
      obtain ⟨d, hd⟩ := Option.ne_none_iff_exists'.mp hfound
      rw [lookup_replaced, hd]
      rfl
    · rw [List.lookup_cons]
      by_cases he : e' = e
      · simp [he]
      · simp [he, beq_false_of_ne he]
  have hregistry : (o.remember e c).registry = o.registry := by
    unfold remember
    split <;> rfl
  rw [cache?, hlookup, hregistry]
  split
  · rfl
  · rfl

/-- The observer has the resolvers that the calls so far have left, for every name that
    its registry finds. -/
structure Remembers (r : Registry) (calls : List Call) (o : Observer) : Prop where
  registry : o.registry = r
  caches : ∀ e, o.cache? e = (r.find? e).map fun m => FieldCache.after m (fieldsAsked e calls)

variable {r : Registry} {calls : List Call} {o : Observer}

theorem remembers_fresh (r : Registry) : Remembers r [] (.fresh r) := ⟨rfl, fun _ => rfl⟩

/-- A call that asks under no other name is remembered with the resolver it leaves. -/
theorem Remembers.remember (h : Remembers r calls o) {e : String} {m : EntityMapping} (hm : r.find? e = some m)
    {calls' : List Call} (hother : ∀ e', e' ≠ e → fieldsAsked e' calls' = fieldsAsked e' calls) :
    Remembers r calls' (o.remember e (FieldCache.after m (fieldsAsked e calls'))) := by
  constructor
  · rw [← h.registry]
    unfold Observer.remember
    split <;> rfl
  · intro e'
    rw [cache?_remember]
    by_cases he : e' = e
    · rw [if_pos he, he, hm]
      rfl
    · rw [if_neg he, h.caches, hother e' he]

theorem Remembers.of_silent (h : Remembers r calls o) {c : Call} (hc : ∀ e m, r.find? e = some m → c.fields e = []) :
    Remembers r (calls ++ [c]) o := by
  refine ⟨h.registry, fun e => ?_⟩
  rw [h.caches]
  cases hm : r.find? e with
  | none => rfl
  | some m => rw [fieldsAsked_concat, hc e m hm, List.append_nil]

theorem Remembers.resolver (h : Remembers r calls o) (e : String) :
    (o.resolver e).1 = (r.find? e).map (fun m => FieldCache.after m (fieldsAsked e calls)) ∧
      Remembers r calls (o.resolver e).2 := by
  unfold Observer.resolver
  rw [h.caches]
  cases hm : r.find? e with
  | none => exact ⟨rfl, h⟩
  | some m => exact ⟨rfl, h.remember hm fun _ _ => rfl⟩

theorem Remembers.field (h : Remembers r calls o) (e name : String) :
    (o.field e name).1 = ((r.find? e).map (·.nativeField name)).getD name ∧
      Remembers r (calls ++ [.ask (.field e name)]) (o.field e name).2 := by
  obtain ⟨hfound, hafter⟩ := h.resolver e
  have hother : ∀ e', e' ≠ e → fieldsAsked e' (calls ++ [.ask (.field e name)]) = fieldsAsked e' calls := by
    intro e' he
    rw [fieldsAsked_concat, Call.fields, if_neg he.symm, List.append_nil]
  unfold Observer.field
  cases hr : o.resolver e with
  | mk found o' =>
    rw [hr] at hfound hafter
    obtain rfl := hfound
    cases hm : r.find? e with
    | none => exact ⟨rfl, hafter.of_silent fun e' m' hm' => if_neg fun he => by rw [← he, hm] at hm'; cases hm'⟩
    | some m =>
      have hasked : fieldsAsked e calls ++ [name] = fieldsAsked e (calls ++ [.ask (.field e name)]) := by
        rw [fieldsAsked_concat, Call.fields, if_pos rfl]
      simp only [Option.map_some, FieldCache.field_after, hasked]
      exact ⟨rfl, hafter.remember hm hother⟩

theorem Remembers.call (h : Remembers r calls o) (c : Call) :
    (o.call c).1 = r.answer c ∧ Remembers r (calls ++ [c]) (o.call c).2 := by
  cases c with
  | ask q =>
    cases q with
    | entity name =>
      refine ⟨?_, h.of_silent fun _ _ _ => rfl⟩
      rw [Observer.call, Observer.entity, h.registry]
      rfl
    | field e name =>
      obtain ⟨hanswer, hafter⟩ := h.field e name
      exact ⟨congrArg Answer.native hanswer, hafter⟩
  | resolver e =>
    obtain ⟨hfound, hafter⟩ := h.resolver e
    refine ⟨?_, hafter.of_silent fun _ _ _ => rfl⟩
    rw [Observer.call, hfound, Registry.answer, Option.map_map]
    exact congrArg Answer.table Option.map_id'

theorem Remembers.run (h : Remembers r [] o) (calls : List Call) :
    (o.run calls).1 = calls.map r.answer ∧ Remembers r calls (o.run calls).2 :=
  runAll_of_step (fun c hdone => hdone.call c) h calls

end Observer

/-! ## (3) A single table -/

/-- What a naming answers, nothing remembered. -/
def answer (n : Naming) : Question → String
  | .entity name => n.entity name
  | .field entity name => n.field entity name

/-- A registry's naming answers what it answers itself. -/
theorem Registry.answer_ask (r : Registry) (q : Question) : r.answer (.ask q) = .native ((ofRegistry r).answer q) := by
  cases q <;> rfl

theorem FieldCache.ask_after (m : EntityMapping) (asked : List String) (q : Question) :
    ((after m asked).ask q).1 = (ofMapping m).answer q ∧ ∃ asked', ((after m asked).ask q).2 = after m asked' := by
  cases q with
  | entity name => exact ⟨rfl, asked, rfl⟩
  | field entity name =>
    rw [ask, fieldOf, field_after]
    show _ = (if entity == m.className || entity == m.native then m.nativeField name else name) ∧ _
    split
    · next hown => exact ⟨(if_pos hown).symm, _, rfl⟩
    · next hother => exact ⟨(if_neg hother).symm, asked, rfl⟩

/-- A resolver that was asked anything is one that was asked for some fields. -/
theorem FieldCache.run_after (m : EntityMapping) (questions : List Question) :
    ((fresh m).run questions).1 = questions.map (ofMapping m).answer ∧
      ∃ asked, ((fresh m).run questions).2 = after m asked := by
  refine @runAll_of_step _ _ _ ask _ (fun _ c => ∃ asked, c = after m asked) ?_ _ [] ⟨[], rfl⟩ questions
  rintro _ _ q ⟨asked, rfl⟩
  exact ask_after m asked q

theorem FieldCache.run_fresh (m : EntityMapping) (questions : List Question) :
    ((fresh m).run questions).1 = questions.map (ofMapping m).answer :=
  (run_after m questions).1

theorem Registry.find?_single (m : EntityMapping) (name : String) :
    (ofList [m]).find? name = if m.className = name ∨ m.native = name then some m else none := by
  show ([m].find? (·.className == name)).or ([m].find? (·.native == name)) = _
  by_cases hclass : m.className = name
  · simp [hclass]
  · by_cases hnative : m.native = name <;> simp [hclass, hnative]

/-- A registry of one table answers as the table alone. -/
theorem answer_single (m : EntityMapping) (q : Question) :
    (ofRegistry (.ofList [m])).answer q = (ofMapping m).answer q := by
  cases q with
  | entity name =>
    show (((Registry.ofList [m]).find? name).map (·.native)).getD name = if name == m.className then m.native else name
    rw [Registry.find?_single]
    by_cases hclass : m.className = name
    · simp [hclass]
    · by_cases hnative : m.native = name
      · simp [hclass, hnative]
      · simp [hclass, hnative, Ne.symm hclass]
  | field entity name =>
    show (((Registry.ofList [m]).find? entity).map (·.nativeField name)).getD name =
      if entity == m.className || entity == m.native then m.nativeField name else name
    rw [Registry.find?_single]
    by_cases hfound : m.className = entity ∨ m.native = entity
    · rcases hfound with h | h <;> simp [h]
    · obtain ⟨hclass, hnative⟩ := not_or.mp hfound
      simp [hclass, hnative, Ne.symm hclass, Ne.symm hnative]

/-- Every call is answered as without a memory, whatever was asked before, as the naming
    that queries are resolved with answers it. A resolver remembers as many fields as it
    was asked for, each counted once. And an observer of one table answers all that the
    table's own resolver answers. -/
theorem memory_invisible (r : Registry) (calls : List Call) :
    let o := ((Observer.fresh r).run calls).2
    ((Observer.fresh r).run calls).1 = calls.map r.answer ∧
    (∀ q, r.answer (.ask q) = .native ((ofRegistry r).answer q)) ∧
    (∀ entity, (o.resolver entity).1.map FieldCache.size =
      (r.find? entity).map fun _ => (fieldsAsked entity calls).eraseDups.length) ∧
    ∀ m questions, ((Observer.fresh (.ofList [m])).run (questions.map .ask)).1 =
      ((FieldCache.fresh m).run questions).1.map .native := by
  intro o
  obtain ⟨hanswers, hafter⟩ := (Observer.remembers_fresh r).run calls
  refine ⟨hanswers, r.answer_ask, fun entity => ?_, fun m questions => ?_⟩
  · rw [(hafter.resolver entity).1, Option.map_map]
    refine congrArg (Option.map · _) (funext fun m => ?_)
    exact FieldCache.size_after m _
  · rw [((Observer.remembers_fresh _).run _).1, FieldCache.run_fresh, List.map_map, List.map_map]
    refine List.map_congr_left fun q _ => ?_
    exact (Registry.answer_ask _ q).trans (congrArg Answer.native (answer_single m q))

end EntityQuery.Naming
