/-
  EntityQuery.Naming.Observer — how names are looked up when a query is resolved.

  A `Naming` gives the native name of an entity, and the native path of a field of
  an entity. Names may stand as they are (`identity`), go through one table
  (`ofMapping`) or through a registry (`ofRegistry`).

  An `Observer` is a registry that remembers: for every entity name it was asked
  about, the fields it has answered. What it answers is what the registry answers.
-/

import EntityQuery.Naming.Mapping

namespace EntityQuery

structure Naming where
  entity : String → String
  /-- Takes the entity's name in the query and the field. -/
  field : String → String → String

namespace Naming

def identity : Naming := ⟨id, fun _ f => f⟩

/-- One table answers for its own entity, by either of its names. -/
def ofMapping (m : EntityMapping) : Naming where
  entity name := if name == m.className then m.native else name
  field entity field := if entity == m.className || entity == m.native then m.nativeField field else field

def ofRegistry (r : Registry) : Naming where
  entity name := ((r.find? name).map (·.native)).getD name
  field entity field := ((r.find? entity).map (·.nativeField field)).getD field

/-! ## Remembered answers -/

/-- The answers of one table, by field. -/
structure FieldCache where
  mapping : EntityMapping
  answers : List (String × String)

namespace FieldCache

def fresh (m : EntityMapping) : FieldCache := ⟨m, []⟩

def size (c : FieldCache) : Nat := c.answers.length

def field (c : FieldCache) (name : String) : String × FieldCache :=
  match c.answers.lookup name with
  | some native => (native, c)
  | none =>
    let native := c.mapping.nativeField name
    (native, { c with answers := (name, native) :: c.answers })

/-- As a naming: a field of another entity is not looked up. -/
def fieldOf (c : FieldCache) (entity name : String) : String × FieldCache :=
  if entity == c.mapping.className || entity == c.mapping.native then c.field name else (name, c)

end FieldCache

structure Observer where
  registry : Registry
  caches : List (String × FieldCache)

namespace Observer

def fresh (r : Registry) : Observer := ⟨r, []⟩

def entity (o : Observer) (name : String) : String := (ofRegistry o.registry).entity name

/-- The cache for an entity's name: the one there is, or a fresh one. -/
def cache? (o : Observer) (entity : String) : Option FieldCache :=
  (o.caches.lookup entity).or ((o.registry.find? entity).map .fresh)

def remember (o : Observer) (entity : String) (c : FieldCache) : Observer :=
  if o.caches.any (·.1 == entity) then
    { o with caches := o.caches.map fun e => if e.1 == entity then (entity, c) else e }
  else { o with caches := (entity, c) :: o.caches }

/-- The cache for an entity's name, which is remembered from now on. -/
def resolver (o : Observer) (entity : String) : Option FieldCache × Observer :=
  match o.cache? entity with
  | some c => (some c, o.remember entity c)
  | none => (none, o)

def field (o : Observer) (entity name : String) : String × Observer :=
  match o.resolver entity with
  | (some c, o) =>
    let (native, c) := c.field name
    (native, o.remember entity c)
  | (none, o) => (name, o)

end Observer

end Naming

end EntityQuery
