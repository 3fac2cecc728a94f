/-
  EntityQuery.Command.Arguments — reading the arguments of the command.

  The first argument names a subcommand, or asks for help or the version. After it,
  options and operands come in any order. A long option starts with two hyphens and
  may carry its value after an equals sign; short options are one letter each, may
  share a hyphen, and the value of the last may follow at once, with or without an
  equals sign. Otherwise the value is the next argument, which then does not look
  like an option. After a bare `--` all is operands.

  Arguments are read from left to right, and the first fault or request for help
  ends the reading. An option comes once, unless it may be repeated.
-/

import EntityQuery.Error

namespace EntityQuery.Command

inductive Opt where
  | family
  | data
  | metadata
  | binding
  | pretty
  | syntaxOnly
  | tokens
  deriving DecidableEq

inductive OptKind where
  | flag
  | single
  | repeated
  deriving DecidableEq

namespace Opt

def long : Opt → String
  | family => "family"
  | data => "data"
  | metadata => "metadata"
  | binding => "bind"
  | pretty => "pretty"
  | syntaxOnly => "syntax-only"
  | tokens => "tokens"

def short? : Opt → Option Char
  | family => some 'f'
  | data => some 'd'
  | metadata => some 'm'
  | binding => some 'b'
  | pretty => some 'p'
  | syntaxOnly | tokens => none

def kind : Opt → OptKind
  | family | data | metadata => .single
  | binding => .repeated
  | pretty | syntaxOnly | tokens => .flag

/-- A family is one that there is, and a path is not empty. -/
def accepts (o : Opt) (value : String) : Bool :=
  match o with
  | family => (Family.ofText value).toOption.isSome
  | data | metadata => !value.isEmpty
  | _ => true

end Opt

inductive UsageFault where
  | noSubcommand
  | unknownSubcommand (name : String)
  | unknownOption (text : String)
  | missingValue (o : Opt)
  | unneededValue (text : String)
  | invalidValue (o : Opt) (value : String)
  | repeatedOption (o : Opt)
  | missingOperand (name : String)
  | surplusOperand (value : String)
  deriving DecidableEq

/-- Why the reading ends early. -/
inductive Halt where
  | help
  | version
  | usage (fault : UsageFault)
  deriving DecidableEq

/-! ## Options and operands -/

/-- What a subcommand takes: options, and at most so many operands. -/
structure Usage where
  options : List Opt
  operands : Nat

/-- The options with their values and the operands, each in order. -/
structure Line where
  options : List (Opt × String)
  operands : List String

namespace Line

def empty : Line := ⟨[], []⟩

def has (l : Line) (o : Opt) : Bool := l.options.any (·.1 == o)

def value? (l : Line) (o : Opt) : Option String := l.options.lookup o

def values (l : Line) (o : Opt) : List String := (l.options.filter (·.1 == o)).map (·.2)

def addOption (l : Line) (o : Opt) (value : String) : Except Halt Line :=
  if !o.accepts value then .error (.usage (.invalidValue o value))
  else if o.kind != .repeated && l.has o then .error (.usage (.repeatedOption o))
  else .ok { l with options := l.options ++ [(o, value)] }

def addOperand (l : Line) (u : Usage) (value : String) : Except Halt Line :=
  if l.operands.length < u.operands then .ok { l with operands := l.operands ++ [value] }
  else .error (.usage (.surplusOperand value))

end Line

/-- Whether an argument is an option, or the mark that ends the options. -/
def looksLikeOption (cs : List Char) : Bool :=
  match cs with
  | '-' :: _ :: _ => true
  | _ => false

/-- Reads short options; an option still without its value is given back. -/
def readShort (u : Usage) (l : Line) : List Char → Except Halt (Line × Option Opt)
  | [] => .ok (l, none)
  | c :: cs =>
    if c == 'h' then .error .help
    else
      match u.options.find? (·.short? == some c) with
      | none => .error (.usage (.unknownOption (String.ofList ['-', c])))
      | some o =>
        if o.kind == .flag then (l.addOption o "").bind fun l => readShort u l cs
        else
          match cs with
          | [] => .ok (l, some o)
          | '=' :: value => (l.addOption o (String.ofList value)).map (·, none)
          | value => (l.addOption o (String.ofList value)).map (·, none)

/-- Reads a long option after its hyphens. -/
def readLong (u : Usage) (l : Line) (cs : List Char) : Except Halt (Line × Option Opt) :=
  let name := String.ofList (cs.takeWhile (· != '='))
  let attached := cs.dropWhile (· != '=')
  if name == "help" then
    if attached.isEmpty then .error .help else .error (.usage (.unneededValue (String.ofList cs)))
  else
    match u.options.find? (·.long == name), attached with
    | none, _ => .error (.usage (.unknownOption ("--" ++ name)))
    | some o, [] => if o.kind == .flag then (l.addOption o "").map (·, none) else .ok (l, some o)
    | some o, _ :: value =>
      if o.kind == .flag then .error (.usage (.unneededValue (String.ofList cs)))
      else (l.addOption o (String.ofList value)).map (·, none)

def readOption (u : Usage) (l : Line) : List Char → Except Halt (Line × Option Opt)
  | '-' :: '-' :: cs => readLong u l cs
  | cs => readShort u l (cs.drop 1)

def readOperands (u : Usage) (l : Line) : List String → Except Halt Line
  | [] => .ok l
  | a :: rest => (l.addOperand u a).bind fun l => readOperands u l rest

/-- Reads the arguments of a subcommand. `waiting` is an option whose value comes next. -/
def readLine (u : Usage) (l : Line) (waiting : Option Opt) : List String → Except Halt Line
  | [] =>
    match waiting with
    | some o => .error (.usage (.missingValue o))
    | none => .ok l
  | a :: rest =>
    match waiting, looksLikeOption a.toList with
    | some o, true => .error (.usage (.missingValue o))
    | some o, false => (l.addOption o a).bind fun l => readLine u l none rest
    | none, false => (l.addOperand u a).bind fun l => readLine u l none rest
    | none, true =>
      if a == "--" then readOperands u l rest
      else (readOption u l a.toList).bind fun (l, waiting) => readLine u l waiting rest

/-! ## Subcommands -/

structure CheckRequest where
  query : String
  family : Family
  data : Option String
  metadata : Option String
  bindings : List String
  pretty : Bool
  syntaxOnly : Bool
  deriving DecidableEq

inductive Request where
  | check (r : CheckRequest)
  | parse (query : String) (family : Family) (tokens : Bool)
  | docs
  | doc (category : String)
  deriving DecidableEq

def checkUsage : Usage := ⟨[.family, .data, .metadata, .binding, .pretty, .syntaxOnly], 1⟩

def parseUsage : Usage := ⟨[.family, .tokens], 1⟩

def docsUsage : Usage := ⟨[], 0⟩

def docUsage : Usage := ⟨[], 1⟩

namespace Line

/-- The one operand that must be there. -/
def operand (l : Line) (name : String) : Except Halt String :=
  match l.operands with
  | a :: _ => .ok a
  | [] => .error (.usage (.missingOperand name))

def family (l : Line) : Family := ((l.value? .family).bind fun v => (Family.ofText v).toOption).getD .document

def toCheck (l : Line) : Except Halt Request :=
  (l.operand "query").map fun query =>
    .check ⟨query, l.family, l.value? .data, l.value? .metadata, l.values .binding, l.has .pretty,
      l.has .syntaxOnly⟩

def toParse (l : Line) : Except Halt Request :=
  (l.operand "query").map fun query => .parse query l.family (l.has .tokens)

def toDoc (l : Line) : Except Halt Request := (l.operand "category").map .doc

end Line

def subcommands : List String := ["check", "parse", "docs", "doc", "help"]

/-- Help for a subcommand that there is, or for all of them. -/
def readHelp : List String → Except Halt Request
  | [] => .error .help
  | name :: rest =>
    match subcommands.contains name, rest with
    | true, [] => .error .help
    | true, extra :: _ => .error (.usage (.unknownSubcommand extra))
    | false, _ => .error (.usage (.unknownSubcommand name))

/-- Options before any subcommand. -/
def readLeading (argument : String) : Except Halt Request :=
  match argument.toList with
  | '-' :: 'h' :: _ => .error .help
  | '-' :: 'V' :: _ => .error .version
  | '-' :: _ :: _ =>
    if argument == "--help" then .error .help
    else if argument == "--version" then .error .version
    else .error (.usage (.unknownOption argument))
  | _ => .error (.usage (.unknownSubcommand argument))

def readRequest : List String → Except Halt Request
  | [] => .error (.usage .noSubcommand)
  | name :: rest =>
    if name == "check" then (readLine checkUsage .empty none rest).bind (·.toCheck)
    else if name == "parse" then (readLine parseUsage .empty none rest).bind (·.toParse)
    else if name == "docs" then (readLine docsUsage .empty none rest).map fun _ => .docs
    else if name == "doc" then (readLine docUsage .empty none rest).bind (·.toDoc)
    else if name == "help" then readHelp rest
    else readLeading name

end EntityQuery.Command
