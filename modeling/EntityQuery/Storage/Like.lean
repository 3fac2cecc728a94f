/-
  EntityQuery.Storage.Like — the patterns of `like`. A percent sign stands for any
  run of characters, an underscore for one character, anything else for itself;
  neither of the two stands for a line feed. A pattern is for the whole text.

  Matching goes from the end of the pattern to its front and knows, for each suffix
  of the text, whether the pieces so far match it (`Like.suffixes`).

  A pattern is compiled before it is used, and one that takes more bytes than the
  compiler's default limit is refused. The sizes below are what the compiler counts
  for each piece: they decide which patterns are refused, and nothing else.
-/

import EntityQuery.Error

namespace EntityQuery

inductive LikePiece where
  | char (c : Char)
  | one
  | run
  deriving DecidableEq

structure Like where
  pieces : List LikePiece
  deriving DecidableEq

namespace LikePiece

def ofChar (c : Char) : LikePiece := if c == '%' then run else if c == '_' then one else char c

/-- What a piece takes of the pattern compiler's budget, in bytes. A character takes 32
    for each byte of its encoding; a wildcard takes more, for it tells the well-formed
    encodings of one character from all others, and a run of them 40 more to repeat it. -/
def size : LikePiece → Nat
  | char c => 32 * c.utf8Size
  | one => 1000
  | run => 1040

end LikePiece

namespace Like

/-- The pattern compiler's default budget for one pattern: ten mebibytes. -/
def sizeLimit : Nat := 10485760

/-- What a pattern takes of the budget: its pieces, and 192 bytes for its two ends. -/
def size (p : Like) : Nat := p.pieces.foldl (fun n piece => n + piece.size) 192

def ofText (pattern : String) : Like := ⟨pattern.toList.map .ofChar⟩

def compile (pattern : String) : Except QueryError Like :=
  if (ofText pattern).size ≤ sizeLimit then .ok (ofText pattern)
  else .error (.query (.patternTooLarge sizeLimit))

/-! ## Matching -/

/-- Whether a wildcard stands for a character. -/
def isWild (c : Char) : Bool := c != '\n'

/-- One character that passes the test, and then what `after` says of the rest. Both
    lists have an entry for each suffix of the text, the empty one last. -/
def advance (test : Char → Bool) : List Char → List Bool → List Bool
  | c :: cs, _ :: after => (test c && after.headD false) :: advance test cs after
  | _, _ => [false]

/-- Any number of wild characters, and then what `after` says of the rest. -/
def sweep : List Char → List Bool → List Bool
  | c :: cs, here :: after =>
    let rest := sweep cs after
    (here || (isWild c && rest.headD false)) :: rest
  | _, after => after

/-- For each suffix of the text, the whole text first and the empty text last, whether
    the pieces match it. -/
def suffixes (text : List Char) : List LikePiece → List Bool
  | [] => text.map (fun _ => false) ++ [true]
  | .char c :: ps => advance (· == c) text (suffixes text ps)
  | .one :: ps => advance isWild text (suffixes text ps)
  | .run :: ps => sweep text (suffixes text ps)

def isMatch (p : Like) (text : String) : Bool := (suffixes text.toList p.pieces).headD false

end Like

end EntityQuery
