/-
  EntityQuery.Family — the five operations, and the families of databases by what
  they accept: keys, columns, documents and graphs.
-/

namespace EntityQuery

inductive Operation where
  | get
  | delete
  | select
  | update
  | insert
  deriving DecidableEq

def Operation.name : Operation → String
  | get => "get"
  | delete => "delete"
  | select => "select"
  | update => "update"
  | insert => "insert"

inductive Family where
  | keyValue
  | column
  | document
  | graph
  deriving DecidableEq

namespace Family

def all : List Family := [keyValue, column, document, graph]

def name : Family → String
  | keyValue => "key-value"
  | column => "column"
  | document => "document"
  | graph => "graph"

def allowed : Family → List Operation
  | keyValue => [.get, .delete]
  | column | document => [.select, .update, .insert, .delete]
  | graph => [.select]

def allows (f : Family) (op : Operation) : Bool := f.allowed.contains op

/-- The family of a name in lower case; keys have two short names. -/
def ofName? (name : String) : Option Family :=
  if name == "keyvalue" || name == "kv" then some keyValue else all.find? (·.name == name)

end Family

end EntityQuery
