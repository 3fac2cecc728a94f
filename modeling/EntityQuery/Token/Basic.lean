/-
  EntityQuery.Token.Basic — the words of the query language: keywords, in any ASCII
  case, names, literals, parameters and marks, each with the text it was read from
  and where that starts.

  Main fact: a keyword is found by its own word (`lookup_word`).
-/

import EntityQuery.Number.Layout

namespace EntityQuery

/-- A place in a text: characters before it, and its line and column from 1. -/
structure Position where
  offset : Nat
  line : Nat
  column : Nat
  deriving DecidableEq

namespace Position

def start : Position := ⟨0, 1, 1⟩

def next (p : Position) (c : Char) : Position :=
  if c = '\n' then ⟨p.offset + 1, p.line + 1, 1⟩ else ⟨p.offset + 1, p.line, p.column + 1⟩

/-- The place after some characters. -/
def after (p : Position) (cs : List Char) : Position := cs.foldl next p

def toText (p : Position) : String := "line " ++ toString p.line ++ ", column " ++ toString p.column

end Position

/-! ## Keywords -/

inductive Keyword where
  | get | delete | update | select | insert
  | set | «from» | «where» | order | «by» | asc | desc | skip | limit
  | and | or | not | like | «in» | between
  | convert | true | false | null
  deriving DecidableEq

namespace Keyword

def word : Keyword → String
  | get => "get"
  | delete => "delete"
  | update => "update"
  | select => "select"
  | insert => "insert"
  | set => "set"
  | «from» => "from"
  | «where» => "where"
  | order => "order"
  | «by» => "by"
  | asc => "asc"
  | desc => "desc"
  | skip => "skip"
  | limit => "limit"
  | and => "and"
  | or => "or"
  | not => "not"
  | like => "like"
  | «in» => "in"
  | between => "between"
  | convert => "convert"
  | true => "true"
  | false => "false"
  | null => "null"

def all : List Keyword :=
  [get, delete, update, select, insert, set, «from», «where», order, «by», asc, desc, skip, limit,
   and, or, not, like, «in», between, convert, true, false, null]

/-- The keyword that a word is, ASCII case aside. -/
def lookup? (w : String) : Option Keyword := all.find? (·.word == w.toLower)

theorem lookup_word (k : Keyword) : lookup? k.word = some k := by cases k <;> decide +kernel

end Keyword

/-! ## Tokens -/

/-- Operators and punctuation. -/
inductive Mark where
  | eq | gt | lt | gtEq | ltEq | star
  | comma | lparen | rparen | dot
  deriving DecidableEq

def Mark.text : Mark → String
  | eq => "="
  | gt => ">"
  | lt => "<"
  | gtEq => ">="
  | ltEq => "<="
  | star => "*"
  | comma => ","
  | lparen => "("
  | rparen => ")"
  | dot => "."

inductive TokenKind where
  | keyword (k : Keyword)
  | identifier (name : String)
  | string (text : String)
  | integer (n : Int64)
  | float (x : Binary64)
  | param (name : String)
  /-- A list or an object in brackets, as written. -/
  | json (text : String)
  | mark (m : Mark)
  | endOfInput
  deriving DecidableEq

/-- The coarse class of a token. -/
inductive Category where
  | keyword
  | identifier
  | string
  | number
  | param
  | operator
  | punctuation
  | endOfInput
  deriving DecidableEq

def Category.name : Category → String
  | keyword => "Keyword"
  | identifier => "Identifier"
  | string => "String"
  | number => "Number"
  | param => "Param"
  | operator => "Operator"
  | punctuation => "Punctuation"
  | endOfInput => "End"

def Mark.category : Mark → Category
  | comma | lparen | rparen | dot => .punctuation
  | _ => .operator

namespace TokenKind

def category : TokenKind → Category
  | keyword _ => .keyword
  | identifier _ => .identifier
  | string _ | json _ => .string
  | integer _ | float _ => .number
  | param _ => .param
  | mark m => m.category
  | endOfInput => .endOfInput

/-- What a token is called in messages. -/
def describe : TokenKind → String
  | keyword k => "keyword '" ++ k.word ++ "'"
  | identifier name => "identifier '" ++ name ++ "'"
  | string text => "string \"" ++ text ++ "\""
  | integer n => "number " ++ toString n.toInt
  | float x => "number " ++ FloatLayout.message.write x
  | param name => "parameter @" ++ name
  | json text => "JSON literal " ++ text
  | mark m => "'" ++ m.text ++ "'"
  | endOfInput => "end of input"

end TokenKind

structure Token where
  kind : TokenKind
  lexeme : String
  position : Position
  deriving DecidableEq

end EntityQuery
