/-
  EntityQuery.Storage.Filter — which entities satisfy a condition.

  A field that is missing reads as null. Where two values do not compare, no
  comparison holds of them, and neither does `between`; `not` is plain negation.
  `in` wants a value equal to an item of a list, or to a single value. `like` holds
  between texts only.

  The patterns of a condition are compiled before any entity is looked at, each
  distinct one once, so a pattern that cannot be compiled fails the condition as a
  whole.
-/

import EntityQuery.Entity
import EntityQuery.Query.Basic
import EntityQuery.Storage.Like
import EntityQuery.Value.Order

namespace EntityQuery

/-- The value of a field as conditions and sorts see it. -/
def Entity.read (e : Entity) (field : String) : Value := (e.get? field).getD .null

structure Filter where
  condition : Condition Value
  patterns : List (String × Like)

namespace Condition

/-- The pattern of a comparison, if it has one. -/
def pattern? : Comparison → Value → Option String
  | .like, .string pattern => some pattern
  | _, _ => none

mutual

/-- The texts that are used as patterns, in order, repetitions included. -/
def likePatterns : Condition Value → List String
  | .compare _ op v => (pattern? op v).toList
  | .between .. => []
  | .all items => itemPatterns items
  | .any items => itemPatterns items
  | .not c => likePatterns c

def itemPatterns : List (Condition Value) → List String
  | [] => []
  | c :: cs => likePatterns c ++ itemPatterns cs

end

end Condition

namespace Filter

def compileAll : List String → Except QueryError (List (String × Like))
  | [] => .ok []
  | p :: ps => (Like.compile p).bind fun like => (compileAll ps).map ((p, like) :: ·)

def compile (c : Condition Value) : Except QueryError Filter :=
  (compileAll (Query.distinct c.likePatterns)).map (⟨c, ·⟩)

/-! ## Testing -/

def atLeast (o : Option Ordering) : Bool := o == some .gt || o == some .eq

def atMost (o : Option Ordering) : Bool := o == some .lt || o == some .eq

def testLike (patterns : List (String × Like)) : Value → Value → Bool
  | .string text, .string pattern => ((patterns.lookup pattern).map (·.isMatch text)).getD false
  | _, _ => false

def testIn (actual : Value) : Value → Bool
  | .array items => items.any (actual.looseEq ·)
  | v => actual.looseEq v

def testComparison (patterns : List (String × Like)) (op : Comparison) (actual expected : Value) : Bool :=
  match op with
  | .equals => actual.looseEq expected
  | .greater => actual.compare? expected == some .gt
  | .lesser => actual.compare? expected == some .lt
  | .greaterEquals => atLeast (actual.compare? expected)
  | .lesserEquals => atMost (actual.compare? expected)
  | .like => testLike patterns actual expected
  | .isIn => testIn actual expected

mutual

def test (patterns : List (String × Like)) (e : Entity) : Condition Value → Bool
  | .compare field op v => testComparison patterns op (e.read field) v
  | .between field low high => atLeast ((e.read field).compare? low) && atMost ((e.read field).compare? high)
  | .all items => testAll patterns e items
  | .any items => testAny patterns e items
  | .not c => !test patterns e c

def testAll (patterns : List (String × Like)) (e : Entity) : List (Condition Value) → Bool
  | [] => true
  | c :: cs => test patterns e c && testAll patterns e cs

def testAny (patterns : List (String × Like)) (e : Entity) : List (Condition Value) → Bool
  | [] => false
  | c :: cs => test patterns e c || testAny patterns e cs

end

def isMatch (f : Filter) (e : Entity) : Bool := test f.patterns e f.condition

/-- What an optional condition keeps. -/
def keeping (c : Option (Condition Value)) : Except QueryError (Entity → Bool) :=
  match c with
  | none => .ok fun _ => true
  | some c => (compile c).map (·.isMatch)

end Filter

end EntityQuery
