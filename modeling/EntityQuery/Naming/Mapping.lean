/-
  EntityQuery.Naming.Mapping — tables that map the names a query uses, shaped like
  classes, to the names a database stores.

  A field is mapped by the last mapping of its name. A field that is not mapped
  itself may lie inside one that is: the name is split in camel case, and the first
  run of parts, its first letter lowered, that is a mapped field becomes the parent
  path; the parts after it are the nested field. Whatever maps to nothing stays as
  it is.

  A registry holds one table for each class name, in the order in which the names
  were first registered. It finds a table by class name, and failing that the first
  one whose native name it is.
-/

import EntityQuery.Naming.Camel
import EntityQuery.Text.LowerCase

namespace EntityQuery.Naming

inductive FieldKind where
  | default
  /-- The nested type's fields lie in the parent. -/
  | embedded
  /-- A nested entity, stored as a document. -/
  | entity
  | collection
  | map
  | array
  deriving DecidableEq

def FieldKind.name : FieldKind → String
  | default => "default"
  | embedded => "embedded"
  | entity => "entity"
  | collection => "collection"
  | map => "map"
  | array => "array"

def FieldKind.all : List FieldKind := [default, embedded, entity, collection, map, array]

structure FieldMapping where
  /-- The name in queries. -/
  fieldName : String
  /-- The name in the database. -/
  native : String
  kind : FieldKind
  deriving DecidableEq

/-- Whether a field holds fields of its own. -/
def FieldMapping.isEmbeddable (f : FieldMapping) : Bool := f.kind == .embedded || f.kind == .entity

structure EntityMapping where
  native : String
  className : String
  fields : List FieldMapping
  deriving DecidableEq

namespace EntityMapping

def mapping? (m : EntityMapping) (fieldName : String) : Option FieldMapping :=
  m.fields.reverse.find? (·.fieldName == fieldName)

/-- The native name of a field that is mapped itself, or the name. -/
def column (m : EntityMapping) (fieldName : String) : String :=
  ((m.mapping? fieldName).map (·.native)).getD fieldName

/-- The path below a parent that the parts after it stand for. -/
def nestedPath : List (List Char) → List Char
  | [] => []
  | p :: ps => '.' :: Text.lowerFirst p ++ ps.flatten

/-- Looks for the shortest mapped run of parts, onto the parts already joined. -/
def parentPath? (m : EntityMapping) (joined : List Char) : List (List Char) → Option String
  | [] => none
  | p :: ps =>
    let run := joined ++ (if joined.isEmpty then Text.lowerFirst p else p)
    match m.mapping? (String.ofList run) with
    | some f => some (f.native ++ String.ofList (nestedPath ps))
    | none => parentPath? m run ps

/-- The native path of a field. -/
def nativeField (m : EntityMapping) (field : String) : String :=
  match m.mapping? field with
  | some f => f.native
  | none => (m.parentPath? [] (splitCamel field.toList)).getD field

end EntityMapping

structure Registry where
  entities : List EntityMapping

namespace Registry

def empty : Registry := ⟨[]⟩

/-- Adds a table, in place of one of the same class name. -/
def register (r : Registry) (m : EntityMapping) : Registry :=
  if r.entities.any (·.className == m.className) then
    ⟨r.entities.map fun e => if e.className == m.className then m else e⟩
  else ⟨r.entities ++ [m]⟩

def ofList (ms : List EntityMapping) : Registry := ms.foldl register empty

def find? (r : Registry) (name : String) : Option EntityMapping :=
  (r.entities.find? (·.className == name)).or (r.entities.find? (·.native == name))

def size (r : Registry) : Nat := r.entities.length

end Registry

end EntityQuery.Naming
