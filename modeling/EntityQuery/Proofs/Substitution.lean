/-
  EntityQuery.Proofs.Substitution — what substitution makes of a query.

  A query is its shape, which is all but its operands, and its operands in order
  (`Query.eq_of_shape`). Substitution replaces the operands one after the other, in
  that order, and all it does beside is to put what comes out into the renamed shape:
  `substitute_parts`, for any kind of effect that the replacements have.
-/

import EntityQuery.Naming.Observer
import EntityQuery.Proofs.Outcomes
import EntityQuery.Query.Basic

namespace EntityQuery

variable {V W : Type}

/-! ## Shapes -/

namespace Condition

mutual

/-- Other names and operands in the same condition. -/
def map (field : String → String) (f : V → W) : Condition V → Condition W
  | .compare name op v => .compare (field name) op (f v)
  | .between name low high => .between (field name) (f low) (f high)
  | .all items => .all (mapItems field f items)
  | .any items => .any (mapItems field f items)
  | .not c => .not (map field f c)

def mapItems (field : String → String) (f : V → W) : List (Condition V) → List (Condition W)
  | [] => []
  | c :: cs => map field f c :: mapItems field f cs

end

def shape (c : Condition V) : Condition Unit := c.map id fun _ => ()

end Condition

def Assignment.map (field : String → String) (f : V → W) (a : Assignment V) : Assignment W := ⟨field a.field, f a.value⟩

def Assignment.shape (a : Assignment V) : Assignment Unit := a.map id fun _ => ()

namespace Query

/-- Other names and operands in the same query. -/
def map (naming : Naming) (f : V → W) : Query V → Query W
  | .get keys => .get (keys.map f)
  | .delete keys => .delete (keys.map f)
  | .select q =>
    let field := naming.field q.entity
    .select ⟨naming.entity q.entity, q.fields.map field, q.condition.map (·.map field f), q.sorts.map (·.rename field),
      q.skip, q.limit⟩
  | .update q =>
    let field := naming.field q.entity
    .update ⟨naming.entity q.entity, q.set.map (·.map field f), q.condition.map (·.map field f)⟩
  | .insert q => .insert ⟨naming.entity q.entity, q.items.map (·.map (naming.field q.entity) f)⟩

def shape (q : Query V) : Query Unit := q.map .identity fun _ => ()

theorem shape_select (q : SelectQuery V) : (select q).shape =
    .select ⟨q.entity, q.fields, q.condition.map Condition.shape, q.sorts, q.skip, q.limit⟩ := by
  simp only [shape, map, Naming.identity, SortKey.rename, List.map_id_fun', id]
  rfl

theorem shape_update (q : UpdateQuery V) :
    (update q).shape = .update ⟨q.entity, q.set.map Assignment.shape, q.condition.map Condition.shape⟩ := rfl

theorem shape_insert (q : InsertQuery V) : (insert q).shape = .insert ⟨q.entity, q.items.map Assignment.shape⟩ := rfl

end Query

/-! ## A query is its shape and its operands -/

namespace Condition

mutual

theorem eq_of_shape_append (c d : Condition V) (vs ws : List V) (hs : c.shape = d.shape)
    (hv : c.values ++ vs = d.values ++ ws) : c = d ∧ vs = ws := by
  match c, d with
  | .compare .., .compare .. =>
    obtain ⟨rfl, rfl, -⟩ := compare.inj hs
    obtain ⟨rfl, rfl⟩ := List.cons.inj hv
    exact ⟨rfl, rfl⟩
  | .between .., .between .. =>
    obtain ⟨rfl, -, -⟩ := between.inj hs
    obtain ⟨hlow, hrest⟩ := List.cons.inj hv
    obtain ⟨hhigh, hvs⟩ := List.cons.inj hrest
    exact ⟨by rw [hlow, hhigh]; rfl, hvs⟩
  | .all cs, .all ds =>
    obtain ⟨rfl, rfl⟩ := items_eq_of_shape_append cs ds vs ws (all.inj hs) hv
    exact ⟨rfl, rfl⟩
  | .any cs, .any ds =>
    obtain ⟨rfl, rfl⟩ := items_eq_of_shape_append cs ds vs ws (any.inj hs) hv
    exact ⟨rfl, rfl⟩
  | .not c, .not d =>
    obtain ⟨rfl, rfl⟩ := eq_of_shape_append c d vs ws (not.inj hs) hv
    exact ⟨rfl, rfl⟩

theorem items_eq_of_shape_append (cs ds : List (Condition V)) (vs ws : List V)
    (hs : mapItems id (fun _ => ()) cs = mapItems id (fun _ => ()) ds)
    (hv : itemValues cs ++ vs = itemValues ds ++ ws) : cs = ds ∧ vs = ws := by
  match cs, ds with
  | [], [] => exact ⟨rfl, hv⟩
  | c :: cs, d :: ds =>
    obtain ⟨hc, hcs⟩ := List.cons.inj hs
    simp only [itemValues, List.append_assoc] at hv
    obtain ⟨rfl, hrest⟩ := eq_of_shape_append c d _ _ hc hv
    obtain ⟨rfl, rfl⟩ := items_eq_of_shape_append cs ds vs ws hcs hrest
    exact ⟨rfl, rfl⟩

end

end Condition

theorem eq_of_shape_append_condition {c d : Option (Condition V)} {vs ws : List V}
    (hs : c.map Condition.shape = d.map Condition.shape)
    (hv : Query.conditionValues c ++ vs = Query.conditionValues d ++ ws) : c = d ∧ vs = ws := by
  match c, d with
  | none, none => exact ⟨rfl, hv⟩
  | some c, some d =>
    obtain ⟨rfl, rfl⟩ := Condition.eq_of_shape_append c d vs ws (Option.some.inj hs) hv
    exact ⟨rfl, rfl⟩

theorem eq_of_shape_append_assignments {as bs : List (Assignment V)} {vs ws : List V}
    (hs : as.map Assignment.shape = bs.map Assignment.shape)
    (hv : as.map (·.value) ++ vs = bs.map (·.value) ++ ws) : as = bs ∧ vs = ws := by
  induction as generalizing bs with
  | nil =>
    obtain rfl := List.map_eq_nil_iff.mp hs.symm
    exact ⟨rfl, hv⟩
  | cons a as ih =>
    cases bs with
    | nil => cases hs
    | cons b bs =>
      obtain ⟨ha, has⟩ := List.cons.inj hs
      obtain ⟨hval, hrest⟩ := List.cons.inj hv
      obtain ⟨rfl, rfl⟩ := ih has hrest
      obtain ⟨hfield, -⟩ := Assignment.mk.inj ha
      obtain ⟨field, value⟩ := a
      obtain ⟨field', value'⟩ := b
      subst hval hfield
      exact ⟨rfl, rfl⟩

namespace Query

/-- The operands are all that a shape leaves open. -/
theorem eq_of_shape {q r : Query V} (hs : q.shape = r.shape) (hv : q.values = r.values) : q = r := by
  match q, r with
  | .get _, .get _ => exact congrArg get hv
  | .delete _, .delete _ => exact congrArg delete hv
  | .select q, .select r =>
    obtain ⟨entity, fields, c, sorts, skip, limit⟩ := q
    obtain ⟨entity', fields', c', sorts', skip', limit'⟩ := r
    simp only [shape_select, select.injEq, SelectQuery.mk.injEq] at hs
    obtain ⟨rfl, rfl, hc, rfl, rfl, rfl⟩ := hs
    obtain ⟨rfl, -⟩ := eq_of_shape_append_condition hc (congrArg (· ++ []) hv)
    rfl
  | .update q, .update r =>
    obtain ⟨entity, set, c⟩ := q
    obtain ⟨entity', set', c'⟩ := r
    simp only [shape_update, update.injEq, UpdateQuery.mk.injEq] at hs
    obtain ⟨rfl, hset, hc⟩ := hs
    obtain ⟨rfl, hrest⟩ := eq_of_shape_append_assignments hset hv
    obtain ⟨rfl, -⟩ := eq_of_shape_append_condition hc (congrArg (· ++ []) hrest)
    rfl
  | .insert q, .insert r =>
    obtain ⟨entity, items⟩ := q
    obtain ⟨entity', items'⟩ := r
    simp only [shape_insert, insert.injEq, InsertQuery.mk.injEq] at hs
    obtain ⟨rfl, hitems⟩ := hs
    obtain ⟨rfl, -⟩ := eq_of_shape_append_assignments hitems (congrArg (· ++ []) hv)
    rfl

end Query

/-! ## Substitution puts the replacements into the renamed shape -/

section Substitution

variable {m : Type → Type} [Monad m] [LawfulMonad m]

theorem bind_eq_of_map_eq {α β γ δ : Type} {x : m α} {y : m β} {g : α → γ} {h : β → γ} (hxy : g <$> x = h <$> y)
    (k : γ → m δ) : (x >>= fun a => k (g a)) = y >>= fun b => k (h b) := by
  have hk := congrArg (· >>= k) hxy
  simpa using hk

namespace Query

theorem substituteAll_parts (value : V → m W) (vs : List V) :
    (fun ws : List W => (ws.map fun _ => (), ws)) <$> substituteAll value vs =
      (fun ws => (vs.map fun _ => (), ws)) <$> substituteAll value vs := by
  induction vs with
  | nil => simp [substituteAll]
  | cons v vs ih =>
    have h := fun w : W => bind_eq_of_map_eq ih fun p => (pure (() :: p.1, w :: p.2) : m (List Unit × List W))
    simp only [substituteAll, map_bind, map_pure, List.map_cons]
    exact bind_congr h

theorem substituteAll_append (value : V → m W) (vs ws : List V) :
    substituteAll value (vs ++ ws) =
      substituteAll value vs >>= fun xs => (xs ++ ·) <$> substituteAll value ws := by
  induction vs with
  | nil => simp [substituteAll]
  | cons v vs ih => simp [substituteAll, ih]

end Query

open Query (substituteAll substituteAll_append)

namespace Condition

variable (field : String → String) (value : V → m W)

mutual

theorem substitute_parts (c : Condition V) :
    (fun d => (d.shape, d.values)) <$> c.substitute field value =
      (fun ws => (c.map field fun _ => (), ws)) <$> substituteAll value c.values := by
  match c with
  | .compare name op v => simp [substitute, substituteAll, shape, map, values]
  | .between name low high => simp [substitute, substituteAll, shape, map, values]
  | .all cs =>
    have h := bind_eq_of_map_eq (substituteItems_parts cs) fun p => pure (all p.1, p.2)
    simpa [substitute, shape, map, values] using h
  | .any cs =>
    have h := bind_eq_of_map_eq (substituteItems_parts cs) fun p => pure (any p.1, p.2)
    simpa [substitute, shape, map, values] using h
  | .not c =>
    have h := bind_eq_of_map_eq (substitute_parts c) fun p => pure (not p.1, p.2)
    simpa [substitute, shape, map, values] using h

theorem substituteItems_parts (cs : List (Condition V)) :
    (fun ds => (mapItems id (fun _ => ()) ds, itemValues ds)) <$> substituteItems field value cs =
      (fun ws => (mapItems field (fun _ => ()) cs, ws)) <$> substituteAll value (itemValues cs) := by
  match cs with
  | [] => simp [substituteItems, substituteAll, mapItems, itemValues]
  | c :: cs =>
    -- the parts of the first condition, and then those of the others
    have hc := bind_eq_of_map_eq (substitute_parts c) fun p =>
      substituteItems field value cs >>= fun ds =>
        pure (p.1 :: mapItems id (fun _ => ()) ds, p.2 ++ itemValues ds)
    have hcs := fun ws : List W => bind_eq_of_map_eq (substituteItems_parts cs) fun p =>
      pure ((c.map field fun _ => ()) :: p.1, ws ++ p.2)
    simp only [hcs] at hc
    simpa [substituteItems, mapItems, itemValues, substituteAll_append, shape] using hc

end

end Condition

section Parts

variable (field : String → String) (value : V → m W)

theorem substituteCondition_parts (c : Option (Condition V)) :
    (fun d => (d.map Condition.shape, Query.conditionValues d)) <$> Query.substituteCondition field value c =
      (fun ws => (c.map (·.map field fun _ => ()), ws)) <$> substituteAll value (Query.conditionValues c) := by
  cases c with
  | none => simp [Query.substituteCondition, Query.conditionValues, substituteAll]
  | some c =>
    have h := bind_eq_of_map_eq (Condition.substitute_parts field value c) fun p => pure (some p.1, p.2)
    simpa [Query.substituteCondition, Query.conditionValues] using h

theorem substituteAssignments_parts (as : List (Assignment V)) :
    (fun bs : List (Assignment W) => (bs.map Assignment.shape, bs.map (·.value))) <$>
        substituteAll (Query.substituteAssignment field value) as =
      (fun ws => (as.map (·.map field fun _ => ()), ws)) <$> substituteAll value (as.map (·.value)) := by
  induction as with
  | nil => simp [substituteAll]
  | cons a as ih =>
    have h := fun w : W => bind_eq_of_map_eq ih fun p =>
      (pure (a.map field (fun _ => ()) :: p.1, w :: p.2) : m (List (Assignment Unit) × List W))
    simpa [substituteAll, Query.substituteAssignment, Assignment.map, Assignment.shape] using bind_congr h

end Parts

namespace Query

def Substitution.naming (r : Substitution m V W) : Naming := ⟨r.entity, r.field⟩

/-- The shape of what comes out is the renamed shape of the query, and its operands
    are what the query's operands were replaced by, one after the other. -/
theorem substitute_parts (r : Substitution m V W) (q : Query V) :
    (fun p => (p.shape, p.values)) <$> q.substitute r =
      (fun ws => (q.map r.naming fun _ => (), ws)) <$> substituteAll r.value q.values := by
  cases q with
  | get keys =>
    have h := bind_eq_of_map_eq (substituteAll_parts r.value keys) fun p => pure (get p.1, p.2)
    simpa [substitute, shape, map, values] using h
  | delete keys =>
    have h := bind_eq_of_map_eq (substituteAll_parts r.value keys) fun p => pure (delete p.1, p.2)
    simpa [substitute, shape, map, values] using h
  | select q =>
    let field := r.field q.entity
    have h := bind_eq_of_map_eq (substituteCondition_parts field r.value q.condition) fun p =>
      pure (select ⟨r.entity q.entity, q.fields.map field, p.1, q.sorts.map (·.rename field), q.skip, q.limit⟩, p.2)
    simpa [substitute, shape_select, map, values, Substitution.naming] using h
  | update q =>
    let field := r.field q.entity
    have hset := bind_eq_of_map_eq (substituteAssignments_parts field r.value q.set) fun p =>
      substituteCondition field r.value q.condition >>= fun c =>
        pure (update ⟨r.entity q.entity, p.1, c.map Condition.shape⟩, p.2 ++ conditionValues c)
    have hc := fun ws : List W => bind_eq_of_map_eq (substituteCondition_parts field r.value q.condition) fun p =>
      pure (update ⟨r.entity q.entity, q.set.map (·.map field fun _ => ()), p.1⟩, ws ++ p.2)
    simp only [hc] at hset
    simpa [substitute, shape_update, map, values, Substitution.naming, substituteAll_append] using hset
  | insert q =>
    have h := bind_eq_of_map_eq (substituteAssignments_parts (r.field q.entity) r.value q.items) fun p =>
      pure (insert ⟨r.entity q.entity, p.1⟩, p.2)
    simpa [substitute, shape_insert, map, values, Substitution.naming] using h

end Query

end Substitution

/-! ## Substitution that may fail -/

section Except

variable {ε : Type}

theorem Query.parts_injective (q r : Query V) (h : (q.shape, q.values) = (r.shape, r.values)) : q = r :=
  eq_of_shape (Prod.mk.inj h).1 (Prod.mk.inj h).2

theorem Query.substitute_eq_ok {r : Substitution (Except ε) V W} {q : Query V} {p : Query W} :
    q.substitute r = .ok p ↔
      p.shape = q.map r.naming (fun _ => ()) ∧ substituteAll r.value q.values = .ok p.values := by
  have hp := substitute_parts r q
  cases hw : substituteAll r.value q.values with
  | error e =>
    rw [hw] at hp
    constructor
    · intro h
      rw [h] at hp
      cases hp
    · intro ⟨_, h⟩
      cases h
  | ok ws =>
    rw [hw] at hp
    constructor
    · intro h
      rw [h] at hp
      obtain ⟨hs, hv⟩ := Prod.mk.inj (Except.ok.inj hp)
      exact ⟨hs, by rw [← hv]⟩
    · intro ⟨hs, hv⟩
      refine except_map_injective parts_injective (hp.trans ?_)
      show Except.ok (q.map r.naming (fun _ => ()), ws) = Except.ok (p.shape, p.values)
      rw [hs, Except.ok.inj hv]

end Except

end EntityQuery
