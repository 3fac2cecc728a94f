/-
  EntityQuery.Naming.Reader — a registry from JSON: a list of entities, each with
  its native name, its class name (the native one if it is missing or null) and its
  fields; each field with its name in queries, its native name and its kind.

  An entity or a field may also be written as a list of its parts in that order.
  Members of other names are passed over. A kind is a name, or an object of that
  name and null.

  A fault of the whole, such as a missing member, is noticed after the closing
  bracket, where it can still be found.
-/

import EntityQuery.Json.Skip
import EntityQuery.Naming.Mapping

namespace EntityQuery.Naming

open Json (Fault Cause Reading faultAt skipSpace)

/-! ## Typed values -/

/-- A number as found where something else is wanted. -/
def foundNumber : Json.Number → String
  | .whole n => "integer " ++ Json.marked (toString n)
  | .float x => "floating point " ++ Json.marked (FloatLayout.json.write x)

/-- A value that was read where something else is wanted. -/
def foundInstead (wanted : String) (r : Reading β) (text : β → String) : Reading α :=
  r.bind fun (b, rest) => faultAt (.wrongType (text b) wanted) rest 0

/-- What stands at the front instead of what is wanted; a scalar is read first. -/
def wrongType (wanted : String) (cs : List Char) : Reading α :=
  match cs with
  | [] => faultAt .endInValue [] 0
  | c :: r =>
    if c == 'n' then foundInstead wanted (Json.word () ['u', 'l', 'l'] r) fun _ => "null"
    else if c == 't' then foundInstead wanted (Json.word () ['r', 'u', 'e'] r) fun _ => "boolean `true`"
    else if c == 'f' then foundInstead wanted (Json.word () ['a', 'l', 's', 'e'] r) fun _ => "boolean `false`"
    else if c == '-' then foundInstead wanted (Json.number true r) foundNumber
    else if c.isDigit then foundInstead wanted (Json.number false (c :: r)) foundNumber
    else if c == '"' then foundInstead wanted (Json.stringTail [] r) fun s => "string " ++ Text.quoted s
    else if c == '[' then faultAt (.wrongType "sequence" wanted) (c :: r) 0
    else if c == '\x7b' then faultAt (.wrongType "map" wanted) (c :: r) 0
    else faultAt .expectedValue (c :: r) 1

/-- Reads what a known first character opens, blanks before it skipped. -/
def opened (c : Char) (wanted : String) (inside : List Char → Reading α) (cs : List Char) : Reading α :=
  match skipSpace cs with
  | [] => faultAt .endInValue [] 0
  | d :: r => if d == c then inside r else wrongType wanted (d :: r)

def readString (wanted : String) (cs : List Char) : Reading String := opened '"' wanted (Json.stringTail []) cs

def readOptionalString (cs : List Char) : Reading (Option String) :=
  match skipSpace cs with
  | 'n' :: r => Json.word none ['u', 'l', 'l'] r
  | r => (readString "a string" r).map fun (s, rest) => (some s, rest)

def readList (item : List Char → Reading α) (cs : List Char) : Reading (List α) :=
  opened '[' "a sequence" (fun r => Json.listTail item (r.length + 1) true [] r) cs

/-- A name among those of the kinds. -/
def kindOf (name : String) (rest : List Char) : Reading FieldKind :=
  match FieldKind.all.find? (·.name == name) with
  | some k => .ok (k, rest)
  | none => faultAt (.unknownVariant name (FieldKind.all.map (·.name))) rest 0

/-- Null, and then the end of the object around it. -/
def readUnitEnd (cs : List Char) : Reading Unit :=
  match skipSpace cs with
  | [] => faultAt .endInValue [] 0
  | 'n' :: r =>
    (Json.word () ['u', 'l', 'l'] r).bind fun (_, rest) =>
      match skipSpace rest with
      | [] => faultAt .endInObject [] 0
      | '\x7d' :: q => .ok ((), q)
      | q => faultAt .expectedValue q 0
  | r => wrongType "unit" r

/-- The key of an object that holds a kind. Only a string will do; where the object
    ends at once it is the kind that is missing. -/
def readKindKey (cs : List Char) : Reading String :=
  match skipSpace cs with
  | [] => faultAt .endInValue [] 0
  | c :: r =>
    if c == '"' then Json.stringTail [] r
    else if c == '\x7d' then faultAt .expectedValue (c :: r) 1
    else faultAt .keyNotString (c :: r) 1

def readKind (cs : List Char) : Reading FieldKind :=
  match skipSpace cs with
  | [] => faultAt .endInValue [] 0
  | '"' :: r => (Json.stringTail [] r).bind fun (name, rest) => kindOf name rest
  | '\x7b' :: r =>
    (readKindKey r).bind fun (name, rest) =>
      (kindOf name rest).bind fun (k, rest) =>
        (Json.colon rest).bind fun (_, rest) => (readUnitEnd rest).map fun (_, rest) => (k, rest)
  | r => faultAt .expectedValue r 1

/-! ## Members -/

/-- A fault noticed once the rest of an object has been looked at: after its brace,
    if that is next. -/
def faultInObject (cause : Cause) (cs : List Char) : Reading α :=
  match skipSpace cs with
  | '\x7d' :: r => faultAt cause r 0
  | r => faultAt cause r 0

/-- The value of a member that may come once. -/
def once (name : String) (old : Option α) (read : List Char → Reading α) (cs : List Char) : Reading (Option α) :=
  if old.isSome then faultInObject (.duplicateField name) cs
  else
    (Json.colon cs).bind fun (_, rest) => (read rest).map fun (a, rest) => (some a, rest)

/-- Passes over a member nobody knows. -/
def ignored (a : α) (cs : List Char) : Reading α :=
  (Json.colon cs).bind fun (_, rest) => (Json.skipValue rest).map fun rest => (a, rest)

/-- Reads the members of an object up to its closing brace; `fuel` bounds their number. -/
def members (member : String → σ → List Char → Reading σ) : Nat → Bool → σ → List Char → Reading σ
  | 0, _, _, _ => faultAt .endInObject [] 0
  | fuel + 1, first, s, cs =>
    let next (cs : List Char) : Reading σ :=
      (Json.stringTail [] cs).bind fun (name, rest) =>
        (member name s rest).bind fun (s, rest) => members member fuel false s rest
    match skipSpace cs with
    | [] => faultAt .endInObject [] 0
    | c :: r =>
      if c == '\x7d' then .ok (s, r)
      else if first then if c == '"' then next r else faultAt .keyNotString (c :: r) 1
      else if c == ',' then
        match skipSpace r with
        | [] => faultAt .endInValue [] 0
        | d :: q =>
          if d == '"' then next q
          else if d == '\x7d' then faultAt .trailingComma (d :: q) 1
          else faultAt .keyNotString (d :: q) 1
      else faultAt .expectedObjectEnd (c :: r) 1

/-- Reads the next part of a list, if there is one. -/
def part (read : List Char → Reading α) (first : Bool) (cs : List Char) : Reading (Option α) :=
  let next (cs : List Char) : Reading (Option α) := (read cs).map fun (a, rest) => (some a, rest)
  match skipSpace cs with
  | [] => faultAt .endInList [] 0
  | c :: r =>
    if c == ']' then .ok (none, c :: r)
    else if first then next (c :: r)
    else if c == ',' then
      match skipSpace r with
      | [] => faultAt .endInValue [] 0
      | d :: q => if d == ']' then faultAt .trailingComma (d :: q) 1 else next (d :: q)
    else faultAt .expectedListEnd (c :: r) 1

/-- Wants the end of a list. -/
def closeList (a : α) (cs : List Char) : Reading α :=
  match skipSpace cs with
  | [] => faultAt .endInList [] 0
  | ']' :: r => .ok (a, r)
  | ',' :: r =>
    match skipSpace r with
    | ']' :: q => faultAt .trailingComma (']' :: q) 1
    | q => faultAt .trailingCharacters q 1
  | r => faultAt .trailingCharacters r 1

/-- Wants a part that must be there; the fault is noticed after the bracket. -/
def required (index : Nat) (wanted : String) (cs : List Char) : Option α → Reading α
  | some a => .ok (a, cs)
  | none =>
    match skipSpace cs with
    | ']' :: r => faultAt (.wrongLength index wanted) r 0
    | r => faultAt (.wrongLength index wanted) r 0

/-- An object of members or a list of parts. -/
def objectOrList (wanted : String) (object list : List Char → Reading α) (cs : List Char) : Reading α :=
  match skipSpace cs with
  | [] => faultAt .endInValue [] 0
  | '[' :: r => list r
  | '\x7b' :: r => object r
  | r => wrongType wanted r

/-! ## Fields and entities -/

/-- The members of a field as far as they have come. -/
structure FieldParts where
  fieldName : Option String
  native : Option String
  kind : Option FieldKind

def fieldMember (name : String) (p : FieldParts) (cs : List Char) : Reading FieldParts :=
  if name == "field_name" then
    (once name p.fieldName (readString "a string") cs).map fun (v, rest) => ({ p with fieldName := v }, rest)
  else if name == "name" then
    (once name p.native (readString "a string") cs).map fun (v, rest) => ({ p with native := v }, rest)
  else if name == "kind" then (once name p.kind readKind cs).map fun (v, rest) => ({ p with kind := v }, rest)
  else ignored p cs

def FieldParts.finish (p : FieldParts) (rest : List Char) : Reading FieldMapping :=
  match p.fieldName, p.native with
  | none, _ => faultAt (.missingField "field_name") rest 0
  | _, none => faultAt (.missingField "name") rest 0
  | some f, some n => .ok (⟨f, n, p.kind.getD .default⟩, rest)

def fieldObject (cs : List Char) : Reading FieldMapping :=
  (members fieldMember (cs.length + 1) true ⟨none, none, none⟩ cs).bind fun (p, rest) => p.finish rest

def fieldList (cs : List Char) : Reading FieldMapping :=
  let wanted := "struct FieldMetadata with 3 elements"
  (part (readString "a string") true cs).bind fun (f, rest) =>
    (required 0 wanted rest f).bind fun (f, rest) =>
      (part (readString "a string") false rest).bind fun (n, rest) =>
        (required 1 wanted rest n).bind fun (n, rest) =>
          (part readKind false rest).bind fun (k, rest) => closeList ⟨f, n, k.getD .default⟩ rest

def readField (cs : List Char) : Reading FieldMapping :=
  objectOrList "struct FieldMetadata" fieldObject fieldList cs

/-- The members of an entity as far as they have come. -/
structure EntityParts where
  native : Option String
  className : Option (Option String)
  fields : Option (List FieldMapping)

def entityMember (name : String) (p : EntityParts) (cs : List Char) : Reading EntityParts :=
  if name == "name" then
    (once name p.native (readString "a string") cs).map fun (v, rest) => ({ p with native := v }, rest)
  else if name == "class_name" then
    (once name p.className readOptionalString cs).map fun (v, rest) => ({ p with className := v }, rest)
  else if name == "fields" then
    (once name p.fields (readList readField) cs).map fun (v, rest) => ({ p with fields := v }, rest)
  else ignored p cs

def entityOf (native : String) (className : Option (Option String)) (fields : Option (List FieldMapping)) :
    EntityMapping :=
  ⟨native, className.join.getD native, fields.getD []⟩

def entityObject (cs : List Char) : Reading EntityMapping :=
  (members entityMember (cs.length + 1) true ⟨none, none, none⟩ cs).bind fun (p, rest) =>
    match p.native with
    | none => faultAt (.missingField "name") rest 0
    | some n => .ok (entityOf n p.className p.fields, rest)

def entityList (cs : List Char) : Reading EntityMapping :=
  (part (readString "a string") true cs).bind fun (n, rest) =>
    (required 0 "struct EntityDefinition with 3 elements" rest n).bind fun (n, rest) =>
      (part readOptionalString false rest).bind fun (c, rest) =>
        (part (readList readField) false rest).bind fun (fs, rest) => closeList (entityOf n c fs) rest

def readEntity (cs : List Char) : Reading EntityMapping :=
  objectOrList "struct EntityDefinition" entityObject entityList cs

def Registry.read (text : String) : Except String Registry :=
  let cs := text.toList
  ((readList readEntity cs).bind fun (ms, rest) => Json.ended (Registry.ofList ms) rest).mapError (·.message cs)

end EntityQuery.Naming
