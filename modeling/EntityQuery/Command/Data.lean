/-
  EntityQuery.Command.Data — a store from a data document: a JSON object whose field
  `bucket` is an object of entities by key, and whose field `collections` is an
  object of lists of entities by name. Either may be missing; other fields are
  passed over. An entity is an object.

  The bucket is read first, and the first fault is the one reported.
-/

import EntityQuery.Command.Error
import EntityQuery.Json.Reader
import EntityQuery.Storage.Store
import EntityQuery.Value.Json

namespace EntityQuery.Command

def entityOf (name : String) (v : Json) : Except DataFault Entity :=
  match Value.ofJson v with
  | .object fields => .ok ⟨name, fields⟩
  | w => .error (.entityNotObject name w.kindName)

def loadBucket (s : Store) : List (String × Json) → Except DataFault Store
  | [] => .ok s
  | (key, v) :: rest => (entityOf key v).bind fun e => loadBucket (s.put (.string key) e) rest

def loadEntities (s : Store) (name : String) : List Json → Except DataFault Store
  | [] => .ok s
  | v :: rest => (entityOf name v).bind fun e => loadEntities (s.add e) name rest

def loadCollections (s : Store) : List (String × Json) → Except DataFault Store
  | [] => .ok s
  | (name, .array items) :: rest => (loadEntities s name items).bind fun s => loadCollections s rest
  | (name, _) :: _ => .error (.collectionNotList name)

/-- The fields of a section, none where it is missing; the fault is that of this section. -/
def sectionFields (fault : DataFault) : Option Json → Except DataFault (List (String × Json))
  | none => .ok []
  | some (.object fields) => .ok fields
  | some _ => .error fault

def storeOfJson : Json → Except DataFault Store
  | .object fields =>
    (sectionFields .bucketNotObject (Json.field? fields "bucket")).bind fun bucket =>
      (loadBucket .empty bucket).bind fun s =>
        (sectionFields .collectionsNotObject (Json.field? fields "collections")).bind fun collections =>
          loadCollections s collections
  | _ => .error .notObject

def loadData (text : String) : Except CommandError Store :=
  match Json.parseText text with
  | .ok v => (storeOfJson v).mapError .invalidData
  | .error reason => .error (.json reason)

end EntityQuery.Command
