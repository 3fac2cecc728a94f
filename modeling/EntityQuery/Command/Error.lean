/-
  EntityQuery.Command.Error — what can go wrong in a command, besides what can go
  wrong with its query.
-/

import EntityQuery.Error

namespace EntityQuery.Command

/-- How a data document departs from its layout. -/
inductive DataFault where
  | notObject
  | bucketNotObject
  | collectionsNotObject
  | collectionNotList (name : String)
  /-- An entity of a collection, or under a key, that is a value of another kind. -/
  | entityNotObject (name kind : String)
  deriving DecidableEq

def DataFault.message : DataFault → String
  | notObject => "expected a JSON object"
  | bucketNotObject => "'bucket' must be an object"
  | collectionsNotObject => "'collections' must be an object"
  | collectionNotList name => "'" ++ name ++ "' must be an array"
  | entityNotObject name kind => "entities of '" ++ name ++ "' must be objects, found " ++ kind

inductive FileFault where
  | notFound
  | notDirectory
  | isDirectory
  | notText
  | other (reason : String)
  deriving DecidableEq

def FileFault.message : FileFault → String
  | notFound => "No such file or directory (os error 2)"
  | notDirectory => "Not a directory (os error 20)"
  | isDirectory => "Is a directory (os error 21)"
  | notText => "stream did not contain valid UTF-8"
  | other reason => reason

inductive CommandError where
  | query (e : QueryError)
  /-- A text that is not the JSON it should be, and why. -/
  | json (reason : String)
  | file (fault : FileFault)
  | invalidBinding (argument : String)
  | invalidData (fault : DataFault)
  | unknownCategory (name : String)
  deriving DecidableEq

def CommandError.message : CommandError → String
  | query e => e.message
  | json reason => "Invalid JSON: " ++ reason
  | file fault => "IO error: " ++ fault.message
  | invalidBinding argument => "Invalid binding '" ++ argument ++ "', expected name=<json value>"
  | invalidData fault => "Invalid data: " ++ fault.message
  | unknownCategory name =>
    "Unknown category: '" ++ name ++ "'\nRun 'artemis docs' to see available categories."

end EntityQuery.Command
