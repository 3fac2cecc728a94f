/-
  EntityQuery.Command.Folder — a folder of text files, and the paths that are read
  from inside it. There are no folders in it, and nothing is known of what lies
  around it or at the root but that these are folders.
-/

import EntityQuery.Command.Error

namespace EntityQuery.Command

/-- The files by name. -/
abbrev Folder := List (String × String)

namespace Folder

/-- The names on a path; a doubled slash and a lone dot lead nowhere. -/
def steps (path : String) : List String :=
  ((path.toList.splitOn '/').map String.ofList).filter fun name => name != "" && name != "."

/-- Whether a path can only mean a folder, from the way it ends. -/
def endsAsFolder (path : String) : Bool :=
  match path.toList.reverse with
  | '/' :: _ => true
  | ['.'] => true
  | '.' :: '/' :: _ => true
  | _ => false

def readSteps (f : Folder) (asFolder : Bool) : List String → Except FileFault String
  | [] => .error .isDirectory
  | ".." :: rest => if rest.all (· == "..") then .error .isDirectory else .error .notFound
  | name :: rest =>
    match f.lookup name with
    | none => .error .notFound
    | some text => if rest.isEmpty && !asFolder then .ok text else .error .notDirectory

def startsAtRoot (path : String) : Bool := path.toList.head? == some '/'

/-- Reads the file at a path. -/
def read (f : Folder) (path : String) : Except FileFault String :=
  readSteps (if startsAtRoot path then [] else f) (endsAsFolder path) (steps path)

end Folder

end EntityQuery.Command
