/-
  EntityQuery.Storage.Store — a manager that keeps everything in memory: a bucket of
  entities under keys, and collections of entities by name.

  (1) Bucket. Keys are equal as conditions see it (`Value.looseEq`), so 10 and 10.0
  are one key. Putting under a key that is there replaces the entity and keeps the
  key as it was first written.

  (2) Collections. An entity is added to the collection of its name. A select keeps
  the entities that satisfy the condition, sorts them, cuts the window and then
  projects. An update sets fields of the entities that satisfy the condition, in the
  order of the assignments. A collection that is not there is empty, and a condition
  on it is not even compiled.
-/

import EntityQuery.Storage.Manager
import EntityQuery.Storage.Sorting

namespace EntityQuery

structure Store where
  bucket : List (Value × Entity)
  /-- Each with at least one entity, in the order in which they came to be. -/
  collections : List (String × List Entity)

namespace Store

def empty : Store := ⟨[], []⟩

/-! ## (1) Bucket -/

def putEntry (key : Value) (e : Entity) : List (Value × Entity) → List (Value × Entity)
  | [] => [(key, e)]
  | (k, old) :: rest => if k.looseEq key then (k, e) :: rest else (k, old) :: putEntry key e rest

def put (s : Store) (key : Value) (e : Entity) : Store := { s with bucket := putEntry key e s.bucket }

def bucketSize (s : Store) : Nat := s.bucket.length

def find? (s : Store) (key : Value) : Option Entity := (s.bucket.find? (·.1.looseEq key)).map (·.2)

/-- The entities under the keys; keys with none are passed over. -/
def get (s : Store) (keys : List Value) : List Entity := keys.filterMap s.find?

def delete (s : Store) (keys : List Value) : Store :=
  { s with bucket := s.bucket.filter fun (k, _) => !keys.any (k.looseEq ·) }

/-! ## (2) Collections -/

def addEntity (e : Entity) : List (String × List Entity) → List (String × List Entity)
  | [] => [(e.name, [e])]
  | (name, es) :: rest => if name == e.name then (name, es ++ [e]) :: rest else (name, es) :: addEntity e rest

def add (s : Store) (e : Entity) : Store := { s with collections := addEntity e s.collections }

def collection? (s : Store) (name : String) : Option (List Entity) := s.collections.lookup name

def entities (s : Store) (name : String) : List Entity := (s.collection? name).getD []

/-- Drops and takes as a window says. -/
def window (skip limit : Option Nat) (es : List Entity) : List Entity :=
  let rest := es.drop (skip.getD 0)
  match limit with
  | some n => rest.take n
  | none => rest

def select (s : Store) (q : SelectQuery Value) : Except QueryError (List Entity) :=
  match s.collection? q.entity with
  | none => .ok []
  | some es =>
    (Filter.keeping q.condition).map fun keep =>
      (window q.skip q.limit (SortKey.sort q.sorts (es.filter keep))).map (·.project q.fields)

def assign (items : List (Assignment Value)) (e : Entity) : Entity := items.foldl (fun e a => e.set a.field a.value) e

def setCollection (name : String) (es : List Entity) : List (String × List Entity) → List (String × List Entity)
  | [] => []
  | (n, old) :: rest => if n == name then (n, es) :: rest else (n, old) :: setCollection name es rest

def update (s : Store) (q : UpdateQuery Value) : Except QueryError (List Entity × Store) :=
  match s.collection? q.entity with
  | none => .ok ([], s)
  | some es =>
    (Filter.keeping q.condition).map fun keep =>
      let changed := es.map fun e => if keep e then assign q.set e else e
      ((es.filter keep).map (assign q.set), { s with collections := setCollection q.entity changed s.collections })

def insert (s : Store) (q : InsertQuery Value) : Entity × Store :=
  let e := assign q.items ⟨q.entity, []⟩
  (e, s.add e)

/-! ## As a manager -/

def manager : Manager Store where
  get keys s := (.ok (s.get keys), s)
  delete keys s := (.ok (), s.delete keys)
  select q s := (s.select q, s)
  update q s :=
    match s.update q with
    | .ok (es, t) => (.ok es, t)
    | .error e => (.error e, s)
  insert q s :=
    let (e, t) := s.insert q
    (.ok [e], t)

end Store

end EntityQuery
