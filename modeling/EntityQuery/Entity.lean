/-
  EntityQuery.Entity — records of a named entity, and fields of documents at any
  depth.

  Fields are kept in the order of their names. A path is names joined by points;
  reading descends through documents and finds nothing past anything else, writing
  makes the documents it needs and replaces what stands in the way. Projection
  writes the values found at some paths into an empty entity; no paths mean all.

  Main facts: what was put under a name is found there, and nothing else changes
  (`lookup_put_self`, `lookup_put_of_ne`).
-/

import EntityQuery.Value.Basic

namespace EntityQuery

abbrev Fields := List (String × Value)

namespace Fields

def lookup? (fields : Fields) (name : String) : Option Value := (fields.find? (·.1 == name)).map (·.2)

/-- Puts a new field before the first greater name. -/
def insertNew (name : String) (value : Value) : Fields → Fields
  | [] => [(name, value)]
  | f :: fs => if name < f.1 then (name, value) :: f :: fs else f :: insertNew name value fs

/-- Replaces the first field of the name. -/
def replace (name : String) (value : Value) : Fields → Fields
  | [] => []
  | f :: fs => if f.1 == name then (name, value) :: fs else f :: replace name value fs

def put (fields : Fields) (name : String) (value : Value) : Fields :=
  if fields.any (·.1 == name) then replace name value fields else insertNew name value fields

theorem lookup_insertNew (name : String) (value : Value) (fields : Fields)
    (h : fields.any (·.1 == name) = false) : lookup? (insertNew name value fields) name = some value := by
  induction fields with
  | nil => simp [insertNew, lookup?]
  | cons f fs ih =>
    simp only [List.any_cons, Bool.or_eq_false_iff] at h
    unfold insertNew
    split
    · simp [lookup?]
    · simpa [lookup?, h.1] using ih h.2

theorem lookup_replace (name : String) (value : Value) (fields : Fields)
    (h : fields.any (·.1 == name) = true) : lookup? (replace name value fields) name = some value := by
  induction fields with
  | nil => simp at h
  | cons f fs ih =>
    unfold replace
    by_cases hf : (f.1 == name) = true
    · simp [hf, lookup?]
    · simp only [List.any_cons, hf, Bool.false_or] at h
      simpa [hf, lookup?] using ih h

theorem lookup_put_self (fields : Fields) (name : String) (value : Value) :
    lookup? (put fields name value) name = some value := by
  unfold put
  split
  · next h => exact lookup_replace name value fields h
  · next h => exact lookup_insertNew name value fields (Bool.eq_false_iff.mpr h)

theorem lookup_put_of_ne (fields : Fields) (name other : String) (value : Value) (h : other ≠ name) :
    lookup? (put fields name value) other = lookup? fields other := by
  have hne : (name == other) = false := by simpa using fun e => h e.symm
  have hreplace : ∀ fs : Fields, lookup? (replace name value fs) other = lookup? fs other := by
    intro fs
    induction fs with
    | nil => rfl
    | cons f fs ih =>
      unfold replace
      by_cases hf : (f.1 == name) = true
      · have : (f.1 == other) = false := by rw [beq_iff_eq] at hf; rw [hf]; exact hne
        simp [hf, lookup?, this, hne]
      · by_cases ho : (f.1 == other) = true
        · simp [hf, lookup?, ho]
        · simpa [hf, lookup?, ho] using ih
  have hinsert : ∀ fs : Fields, lookup? (insertNew name value fs) other = lookup? fs other := by
    intro fs
    induction fs with
    | nil => simp [insertNew, lookup?, hne]
    | cons f fs ih =>
      unfold insertNew
      split
      · simp [lookup?, hne]
      · by_cases ho : (f.1 == other) = true
        · simp [lookup?, ho]
        · simpa [lookup?, ho] using ih
  unfold put
  split
  · exact hreplace fields
  · exact hinsert fields

/-- Fields from a list of pairs in any order; of equal names the last one counts. -/
def ofList (pairs : List (String × Value)) : Fields :=
  pairs.foldl (fun fields (name, value) => put fields name value) []

end Fields

namespace Value

/-- The value that the names lead to. -/
def descend? (v : Value) : List String → Option Value
  | [] => some v
  | name :: names =>
    match v with
    | .object fields => (Fields.lookup? fields name).bind (descend? · names)
    | _ => none

/-- The fields of a document; anything else counts as an empty one. -/
def fieldsOrEmpty : Value → Fields
  | .object fields => fields
  | _ => []

end Value

namespace Fields

/-- The value at the end of a chain of names; an empty chain leads nowhere. -/
def get? (fields : Fields) : List String → Option Value
  | [] => none
  | name :: names => (lookup? fields name).bind (Value.descend? · names)

/-- The fields of the document under a name, none if there is no document. -/
def inner (fields : Fields) (name : String) : Fields := ((lookup? fields name).map Value.fieldsOrEmpty).getD []

/-- Writes at the end of a chain of names. -/
def set (fields : Fields) (value : Value) : List String → Fields
  | [] => fields
  | [name] => put fields name value
  | name :: names => put fields name (.object (set (inner fields name) value names))

end Fields

structure Entity where
  name : String
  fields : Fields

namespace Entity

/-- The names of a path. -/
def segments (path : String) : List String :=
  (path.toList.splitOn '.').map String.ofList

def get? (e : Entity) (path : String) : Option Value := e.fields.get? (segments path)

def set (e : Entity) (path : String) (value : Value) : Entity :=
  { e with fields := e.fields.set value (segments path) }

/-- Copies the value at a path, if there is one. -/
def copyPath (source target : Entity) (path : String) : Entity :=
  match source.get? path with
  | some value => target.set path value
  | none => target

def project (e : Entity) (paths : List String) : Entity :=
  if paths.isEmpty then e else paths.foldl (copyPath e) ⟨e.name, []⟩

end Entity

end EntityQuery
