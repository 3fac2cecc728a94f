/-
  EntityQuery.Main — the command: it reads the files and the input that its
  arguments may call for, runs, and writes the outcome.
-/

import EntityQuery.Command.Run

namespace EntityQuery.Command

def ioFault : IO.Error → FileFault
  | .noFileOrDirectory .. => .notFound
  | .inappropriateType _ code _ => if code == 21 then .isDirectory else .notDirectory
  | e => .other (toString e)

def decoded (bytes : ByteArray) : Except FileFault String :=
  match String.fromUTF8? bytes with
  | some text => .ok text
  | none => .error .notText

def readPath (path : String) : IO (Except FileFault String) := do
  try
    pure (decoded (← IO.FS.readBinFile path))
  catch e => pure (.error (ioFault e))

def readInput : IO (Option (Except FileFault String)) := do
  let stdin ← IO.getStdin
  if ← stdin.isTty then pure none
  else pure (some (decoded (← stdin.readBinToEnd)))

/-- The files and the input that a request names. -/
def sourcesFor : Request → IO Sources
  | .check r => do
    let paths := r.data.toList ++ r.metadata.toList
    let files ← paths.mapM fun path => do pure (path, ← readPath path)
    let input ← if r.data.isSome || r.syntaxOnly then pure none else readInput
    pure ⟨fun path => (files.lookup path).getD (.error .notFound), input⟩
  | _ => pure ⟨fun _ => .error .notFound, none⟩

def sourcesOf (arguments : List String) : IO Sources :=
  match readRequest arguments with
  | .ok r => sourcesFor r
  | .error _ => pure ⟨fun _ => .error .notFound, none⟩

end EntityQuery.Command

open EntityQuery.Command in
def main (arguments : List String) : IO UInt32 := do
  let outcome := runCommand (← sourcesOf arguments) arguments
  IO.print outcome.output
  IO.eprint outcome.errors
  pure outcome.code.toUInt32
