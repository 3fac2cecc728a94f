/-
  EntityQuery.Query.Parser — tokens into queries.

  A parser holds the token in front of it and the readings still to come. Taking
  the token brings the next reading forward; if that is a fault the token stays and
  the fault is passed over, so a parser can be used again after a failure
  (`advance`).

  Precedence: a negation binds tightest, then conjunction, then disjunction;
  brackets override. Negations and brackets may lie `maxNesting` deep in a
  condition; the token that would open one more is malformed. Brackets of lists,
  inserts and conversions do not count.

  Repetition is bounded by the readings still to come: every repeated item takes at
  least its separator.
-/

import EntityQuery.Json.Reader
import EntityQuery.Json.Writer
import EntityQuery.Query.Basic
import EntityQuery.Token.Lexer

namespace EntityQuery

structure ParserState where
  current : Token
  feed : Token.Feed

abbrev Parser := EStateM QueryError ParserState

namespace Parser

/-! ## Tokens -/

/-- Takes the token in front. -/
def advance : Parser Unit := fun s =>
  match s.feed.next with
  | (.ok t, feed) => .ok () ⟨t, feed⟩
  | (.error e, feed) => .error e { s with feed := feed }

def malformed (fault : SyntaxFault) : Parser α := do
  throw (.malformed fault (← get).current.position)

def unexpected (what : String) : Parser α := do
  malformed (.expected what (← get).current.kind)

def isKind (kind : TokenKind) : Parser Bool := do
  pure ((← get).current.kind == kind)

/-- Takes the token if it is of the kind. -/
def accept (kind : TokenKind) : Parser Bool := do
  if ← isKind kind then
    advance
    pure true
  else pure false

def acceptKeyword (k : Keyword) : Parser Bool := accept (.keyword k)

def expect (kind : TokenKind) : Parser Unit := do
  unless ← accept kind do unexpected kind.describe

def expectMark (m : Mark) : Parser Unit := expect (.mark m)

def expectKeyword (k : Keyword) : Parser Unit := do
  unless ← acceptKeyword k do unexpected ("'" ++ k.word ++ "'")

def identifier (what : String) : Parser String := do
  match (← get).current.kind with
  | .identifier name =>
    advance
    pure name
  | _ => unexpected what

/-- A count after the keyword of its clause. -/
def count (k : Keyword) : Parser Nat := do
  let what := "a non-negative integer after '" ++ k.word ++ "'"
  match (← get).current.kind with
  | .integer n =>
    if n.toInt < 0 then unexpected what
    else
      advance
      pure n.toInt.toNat
  | _ => unexpected what

/-! ## Repetition -/

/-- As many items as could still come. -/
def itemBound : Parser Nat := do
  pure ((← get).feed.upcoming.length + 1)

def moreItems (separator : Mark) (item : Parser α) : Nat → Parser (List α)
  | 0 => pure []
  | bound + 1 => do
    if ← accept (.mark separator) then
      let a ← item
      let rest ← moreItems separator item bound
      pure (a :: rest)
    else pure []

/-- One item, and further ones each after a comma. -/
def commaList (item : Parser α) : Parser (List α) := do
  let a ← item
  let rest ← moreItems .comma item (← itemBound)
  pure (a :: rest)

/-- Names joined by points. -/
def path : Parser String := do
  let name ← identifier "a field name"
  let rest ← moreItems .dot (identifier "a field name after '.'") (← itemBound)
  pure (".".intercalate (name :: rest))

/-! ## Values -/

/-- The literal that a token is, if it is one. -/
def literal? : Parser (Option Literal) := do
  match (← get).current.kind with
  | .string s => pure (some (.string s))
  | .integer n => pure (some (.integer n))
  | .float x => pure (some (.float x))
  | .keyword .true => pure (some (.boolean true))
  | .keyword .false => pure (some (.boolean false))
  | .keyword .null => pure (some .null)
  | .json text =>
    match Json.parseText text with
    | .ok v => pure (some (.json v.toText))
    | .error reason => malformed (.invalidJson reason)
  | _ => pure none

/-- A string or a number. -/
def convertible : Parser Literal := do
  match (← get).current.kind with
  | .string s =>
    advance
    pure (.string s)
  | .integer n =>
    advance
    pure (.integer n)
  | .float x =>
    advance
    pure (.float x)
  | _ => unexpected "a string or number to convert"

/-- What follows the keyword of a conversion: a literal and a type name in brackets. -/
def conversion : Parser Operand := do
  expectMark .lparen
  let l ← convertible
  expectMark .comma
  let typeName ← path
  expectMark .rparen
  pure (.convert l typeName)

def value : Parser Operand := do
  match (← get).current.kind with
  | .param name =>
    advance
    pure (.param name)
  | .keyword .convert =>
    advance
    conversion
  | _ =>
    match ← literal? with
    | some l =>
      advance
      pure (.literal l)
    | none => unexpected "a value"

/-- The operand of a membership test: a list of values in brackets, or one value. -/
def members : Parser Operand := do
  if ← accept (.mark .lparen) then
    let items ← commaList value
    expectMark .rparen
    pure (.list items)
  else value

/-! ## Conditions -/

/-- How deep negations and brackets may lie in a condition. -/
def maxNesting : Nat := 128

def comparisonOf? : TokenKind → Option Comparison
  | .mark .eq => some .equals
  | .mark .gt => some .greater
  | .mark .lt => some .lesser
  | .mark .gtEq => some .greaterEquals
  | .mark .ltEq => some .lesserEquals
  | .keyword .like => some .like
  | _ => none

def comparison : Parser (Condition Operand) := do
  let field ← path
  if ← acceptKeyword .in then
    pure (.compare field .isIn (← members))
  else if ← acceptKeyword .between then
    let low ← value
    expectKeyword .and
    pure (.between field low (← value))
  else
    match comparisonOf? (← get).current.kind with
    | some op =>
      advance
      pure (.compare field op (← value))
    | none => unexpected ("a comparison operator after '" ++ field ++ "'")

/-- Joins terms from the left as long as the connective stands between them. -/
def moreTerms (k : Keyword) (join : Condition Operand → Condition Operand → Condition Operand)
    (term : Parser (Condition Operand)) : Nat → Condition Operand → Parser (Condition Operand)
  | 0, left => pure left
  | bound + 1, left => do
    if ← acceptKeyword k then
      let right ← term
      moreTerms k join term bound (join left right)
    else pure left

def chain (k : Keyword) (join : Condition Operand → Condition Operand → Condition Operand)
    (term : Parser (Condition Operand)) : Parser (Condition Operand) := do
  let left ← term
  moreTerms k join term (← itemBound) left

def disjunction (term : Parser (Condition Operand)) : Parser (Condition Operand) :=
  chain .or .or (chain .and .and term)

/-- A term, in which so many negations and brackets may still be opened. -/
def term : Nat → Parser (Condition Operand)
  | 0 => do
    if (← isKind (.keyword .not)) || (← isKind (.mark .lparen)) then malformed (.nestedTooDeep maxNesting)
    else comparison
  | levels + 1 => do
    if ← acceptKeyword .not then
      pure (.not (← term levels))
    else if ← accept (.mark .lparen) then
      let c ← disjunction (term levels)
      expectMark .rparen
      pure c
    else comparison

def condition : Parser (Condition Operand) := disjunction (term maxNesting)

/-! ## Queries -/

def whereClause : Parser (Option (Condition Operand)) := do
  if ← acceptKeyword .where then
    pure (some (← condition))
  else pure none

def sortKey : Parser SortKey := do
  let field ← path
  if ← acceptKeyword .desc then
    pure ⟨field, .desc⟩
  else
    let _ ← acceptKeyword .asc
    pure ⟨field, .asc⟩

def orderClause : Parser (List SortKey) := do
  if ← acceptKeyword .order then
    expectKeyword .by
    commaList sortKey
  else pure []

def countClause (k : Keyword) : Parser (Option Nat) := do
  if ← acceptKeyword k then
    pure (some (← count k))
  else pure none

/-- The fields wanted: a star or nothing for all of them. -/
def selection : Parser (List String) := do
  if ← accept (.mark .star) then
    pure []
  else if ← isKind (.keyword .from) then
    pure []
  else commaList path

def assignment : Parser (Assignment Operand) := do
  let field ← path
  expectMark .eq
  pure ⟨field, ← value⟩

def keys (op : Operation) : Parser (List Operand) := do
  advance
  if ← isKind .endOfInput then throw (.query (.missingKeys op))
  else commaList value

def selectQuery : Parser (SelectQuery Operand) := do
  advance
  let fields ← selection
  expectKeyword .from
  let entity ← identifier "an entity name"
  let condition ← whereClause
  let sorts ← orderClause
  let skip ← countClause .skip
  let limit ← countClause .limit
  pure ⟨entity, fields, condition, sorts, skip, limit⟩

def updateQuery : Parser (UpdateQuery Operand) := do
  advance
  let entity ← identifier "an entity name"
  expectKeyword .set
  let set ← commaList assignment
  pure ⟨entity, set, ← whereClause⟩

def insertQuery : Parser (InsertQuery Operand) := do
  advance
  let entity ← identifier "an entity name"
  expectMark .lparen
  let items ← commaList assignment
  expectMark .rparen
  pure ⟨entity, items⟩

/-- A query without what must follow it. -/
def operation : Parser (Query Operand) := do
  let t := (← get).current
  match t.kind with
  | .keyword .get => .get <$> keys .get
  | .keyword .delete => .delete <$> keys .delete
  | .keyword .select => .select <$> selectQuery
  | .keyword .update => .update <$> updateQuery
  | .keyword .insert => .insert <$> insertQuery
  | .endOfInput => throw (.query .noOperation)
  | .keyword _ | .identifier _ => throw (.query (.unknownOperation t.lexeme))
  | _ => unexpected "an operation keyword"

/-- A query, and then the end of the text. -/
def query : Parser (Query Operand) := do
  let q ← operation
  expect .endOfInput
  pure q

/-- A parser at the first token of a text. -/
def start (text : String) : Except QueryError ParserState :=
  match (Token.Feed.ofText text).next with
  | (.ok t, feed) => .ok ⟨t, feed⟩
  | (.error e, _) => .error e

end Parser

namespace Query

def parse (text : String) : Except QueryError (Query Operand) :=
  (Parser.start text).bind fun s =>
    match Parser.query s with
    | .ok q _ => .ok q
    | .error e _ => .error e

end Query

end EntityQuery
