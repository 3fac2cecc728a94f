/-
  EntityQuery.Command.Check — running one query against a data document.

  A binding is written name=value. The name is what stands before the first equals
  sign, without blanks around it and then without parameter markers before it; the
  value is JSON, and a text that is no JSON is a string as it stands.

  A check that asks for the syntax alone reads the query and nothing else. Otherwise
  the data is loaded, then the naming, then the query is prepared, bound and run;
  the first of these that fails is the error.
-/

import EntityQuery.Command.Data
import EntityQuery.Dialect
import EntityQuery.Naming.Reader

namespace EntityQuery.Command

/-! ## Bindings -/

def isMarker (c : Char) : Bool := c == '@' || c == '?'

/-- The name that the text before the equals sign gives; none if it is blank. -/
def bindingName? (cs : List Char) : Option String :=
  let name := Text.trim cs
  if name.isEmpty then none else some (String.ofList (name.dropWhile isMarker))

def bindingValue (text : String) : Value :=
  match Json.parseText text with
  | .ok v => .ofJson v
  | .error _ => .string text

def parseBinding (argument : String) : Except CommandError (String × Value) :=
  let cs := argument.toList
  match cs.dropWhile (· != '='), bindingName? (cs.takeWhile (· != '=')) with
  | _ :: value, some name => .ok (name, bindingValue (String.ofList value))
  | _, _ => .error (.invalidBinding argument)

/-! ## Checks -/

structure Check where
  query : String
  family : Family
  data : Option String
  naming : Option String
  bindings : List (String × Value)
  syntaxOnly : Bool

inductive Report where
  | syntaxValid
  /-- What the query found, as a list of objects. -/
  | found (entities : Json)

def loadNaming : Option String → Except CommandError Naming
  | none => .ok .identity
  | some text =>
    match Naming.Registry.read text with
    | .ok r => .ok (.ofRegistry r)
    | .error reason => .error (.json reason)

def bindAll (s : Statement) : List (String × Value) → Except QueryError Statement
  | [] => .ok s
  | (name, value) :: rest => (s.bind name value).bind (bindAll · rest)

/-- What a prepared query finds in a store. -/
def findAll (s : Statement) (store : Store) : Except QueryError Report :=
  (s.list Store.manager store).1.map fun es => .found (.array (es.map (·.toJson)))

def Check.run (c : Check) : Except CommandError Report :=
  match Dialects.all.get c.family with
  | .error e => .error (.query e)
  | .ok dialect =>
    if c.syntaxOnly then ((dialect.read c.query).map fun _ => Report.syntaxValid).mapError .query
    else
      ((c.data.map loadData).getD (.ok .empty)).bind fun store =>
        (loadNaming c.naming).bind fun naming =>
          ((dialect.prepare c.query naming).bind fun s =>
            (bindAll s c.bindings).bind (findAll · store)).mapError .query

end EntityQuery.Command
