/-
  EntityQuery.Command.Run — what the command writes and how it ends, from its
  arguments, its input and the files it may read.

  What was asked for goes to the output and the command ends with 0; an error goes
  to the error output, on a line of its own, and it ends with 1; arguments that
  cannot be read end it with 2.

  A check reads its data from a file, or from the input if it names none and asks
  for more than the syntax. The data is read first, then the naming, then the
  bindings.
-/

import EntityQuery.Command.Arguments
import EntityQuery.Command.Check
import EntityQuery.Command.Guide
import EntityQuery.Json.Writer
import EntityQuery.Query.Outline

namespace EntityQuery.Command

/-- What a command can read; the input is none where nobody feeds it. -/
structure Sources where
  file : String → Except FileFault String
  input : Option (Except FileFault String)

structure Outcome where
  code : Nat
  output : String
  errors : String
  deriving DecidableEq

/-! ## Check -/

def readFile (s : Sources) (path : String) : Except CommandError String := (s.file path).mapError .file

def readOptional (s : Sources) : Option String → Except CommandError (Option String)
  | none => .ok none
  | some path => (readFile s path).map some

def readData (s : Sources) (r : CheckRequest) : Except CommandError (Option String) :=
  match r.data, r.syntaxOnly, s.input with
  | some path, _, _ => (readFile s path).map some
  | none, false, some input => (input.mapError .file).map some
  | none, _, _ => .ok none

def parseBindings : List String → Except CommandError (List (String × Value))
  | [] => .ok []
  | a :: rest => (parseBinding a).bind fun b => (parseBindings rest).map (b :: ·)

def reportText (pretty : Bool) : Report → String
  | .syntaxValid => "Syntax is valid\n"
  | .found entities => (if pretty then entities.toPrettyText else entities.toText) ++ "\n"

def runCheck (s : Sources) (r : CheckRequest) : Except CommandError String :=
  (readData s r).bind fun data =>
    (readOptional s r.metadata).bind fun naming =>
      (parseBindings r.bindings).bind fun bindings =>
        (Check.run ⟨r.query, r.family, data, naming, bindings, r.syntaxOnly⟩).map (reportText r.pretty)

/-! ## Parse -/

def padLeft (width : Nat) (s : String) : String := String.ofList (List.replicate (width - s.length) ' ') ++ s

def padRight (width : Nat) (s : String) : String := s ++ String.ofList (List.replicate (width - s.length) ' ')

/-- Line and column, category and lexeme. -/
def tokenLine (t : Token) : String :=
  padLeft 4 (toString t.position.line) ++ ":" ++ padRight 4 (toString t.position.column) ++ " " ++
    padRight 12 t.kind.category.name ++ " " ++ t.lexeme ++ "\n"

def tokenLines (ts : List Token) : String := "".intercalate (ts.map tokenLine)

/-- The parts of a query, and the parameters it has. -/
def queryText (q : Query Operand) : String :=
  q.outline.write ++ "\n" ++
    (if q.parameters.isEmpty then "" else "parameters: " ++ ", ".intercalate q.parameters ++ "\n")

def runParse (query : String) (family : Family) (tokens : Bool) : Except QueryError String :=
  if tokens then (Token.tokenize query).map tokenLines
  else (Dialects.all.get family).bind fun d => (d.read query).map queryText

/-! ## All commands -/

def Request.run (s : Sources) : Request → Except CommandError String
  | .check r => runCheck s r
  | .parse query family tokens => (runParse query family tokens).mapError .query
  | .docs => .ok Guide.overview
  | .doc category => Guide.pageOf category

def usageText : String := "Usage: artemis check|parse|docs|doc [OPTIONS] [ARGUMENTS]\n"

def Halt.outcome : Halt → Outcome
  | .help => ⟨0, usageText, ""⟩
  | .version => ⟨0, "artemis 0.2.0\n", ""⟩
  | .usage _ => ⟨2, "", usageText⟩

def runCommand (s : Sources) (arguments : List String) : Outcome :=
  match readRequest arguments with
  | .error h => h.outcome
  | .ok r =>
    match r.run s with
    | .ok text => ⟨0, text, ""⟩
    | .error e => ⟨1, "", e.message ++ "\n"⟩

end EntityQuery.Command
