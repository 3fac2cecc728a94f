/-
  EntityQuery.Error — what can go wrong between a query text and its answer, by
  cause. The wording is in `message` alone.
-/

import EntityQuery.Token.Basic
import EntityQuery.Family
import EntityQuery.Text.Quoted

namespace EntityQuery

/-- Why a query text is malformed at a place. -/
inductive SyntaxFault where
  | unterminatedString
  | invalidNumber (text : String)
  /-- A closing bracket inside a JSON literal that does not close the last one opened. -/
  | mismatchedCloser (c : Char)
  | unclosedJson
  | unnamedParameter
  /-- A closing bracket of JSON where none is open. -/
  | strayCloser (c : Char)
  | unexpectedCharacter (c : Char)
  | expected (what : String) (found : TokenKind)
  | nestedTooDeep (levels : Nat)
  | invalidJson (reason : String)
  deriving DecidableEq

def SyntaxFault.message : SyntaxFault → String
  | unterminatedString => "Unterminated string: missing closing quote"
  | invalidNumber text => "Invalid number '" ++ text ++ "'"
  | mismatchedCloser c => "Unbalanced '" ++ c.toString ++ "' in JSON literal"
  | unclosedJson => "Unbalanced JSON literal: missing closing brace"
  | unnamedParameter => "Parameter marker must be followed by a name"
  | strayCloser c => "Unbalanced '" ++ c.toString ++ "' without opening"
  | unexpectedCharacter c => "Unexpected character '" ++ c.toString ++ "'"
  | expected what found => "Expected " ++ what ++ ", found " ++ found.describe
  | nestedTooDeep levels => "Conditions nested deeper than " ++ toString levels ++ " levels"
  | invalidJson reason => "Invalid JSON literal: " ++ reason

/-- Why a well-formed text is no query, or a query cannot run. -/
inductive QueryFault where
  | noOperation
  | unknownOperation (word : String)
  | missingKeys (op : Operation)
  | unsupported (op : Operation) (family : Family)
  | parametersLeft (names : List String)
  | parameterNotBound (name : String)
  | preparationNeeded (names : List String)
  | noParser (family : Family)
  | patternTooLarge (limit : Nat)
  deriving DecidableEq

def QueryFault.message : QueryFault → String
  | noOperation => "Query has no operation"
  | unknownOperation word => "Unknown operation '" ++ word ++ "'"
  | missingKeys op => "'" ++ op.name ++ "' requires at least one key"
  | unsupported op family => "The operation '" ++ op.name ++ "' is not supported by " ++ family.name ++ " databases"
  | parametersLeft names =>
    "Check all the parameters before execute the query, params left: " ++ Text.quotedList names
  | parameterNotBound name => "The parameter @" ++ name ++ " is not bound"
  | preparationNeeded names =>
    "To run a query with parameters use prepare instead, parameters: " ++ Text.quotedList names
  | noParser family => "No query parser registered for " ++ family.name
  | patternTooLarge limit =>
    "Invalid like pattern: Compiled regex exceeds size limit of " ++ toString limit ++ " bytes."

/-- An argument that its callee cannot take. -/
inductive ArgumentFault where
  | undeclaredParameter (name : String) (declared : List String)
  | unknownFamily (name : String)
  deriving DecidableEq

def ArgumentFault.message : ArgumentFault → String
  | undeclaredParameter name declared =>
    "The parameter @" ++ name ++ " is not declared in the query; declared: " ++ Text.quotedList declared
  | unknownFamily name => "Unknown database family '" ++ name ++ "'"

inductive QueryError where
  | malformed (fault : SyntaxFault) (position : Position)
  | query (fault : QueryFault)
  | illegalArgument (fault : ArgumentFault)
  | missingArgument (name : String)
  /-- A value, as text, that is none of the type asked for. -/
  | conversion (value typeName : String)
  | nonUniqueResult (count : Nat)
  /-- A failure that a storage manager reports. -/
  | storage (reason : String)
  deriving DecidableEq

namespace QueryError

def message : QueryError → String
  | malformed fault position => "Syntax error at " ++ position.toText ++ ": " ++ fault.message
  | query fault => "Query error: " ++ fault.message
  | illegalArgument fault => "Illegal argument: " ++ fault.message
  | missingArgument name => name ++ " is required"
  | conversion value typeName => "Cannot convert " ++ value ++ " to " ++ typeName
  | nonUniqueResult count => "Expected a single result, found " ++ toString count
  | storage reason => "Storage error: " ++ reason

def position? : QueryError → Option Position
  | malformed _ position => some position
  | _ => none

end QueryError

/-- The family of a name in any ASCII case. -/
def Family.ofText (text : String) : Except QueryError Family :=
  match ofName? text.toLower with
  | some family => .ok family
  | none => .error (.illegalArgument (.unknownFamily text.toLower))

end EntityQuery
