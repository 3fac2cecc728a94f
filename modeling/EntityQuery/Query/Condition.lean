/-
  EntityQuery.Query.Condition — conditions on the fields of an entity, over any
  kind of operand.

  A chain of the same connective is one node: joining a condition to a conjunction
  on the left adds an item to it (`and`), and likewise for a disjunction (`or`).
  `values` lists the operands from left to right; `substitute` renames the fields and
  replaces the operands one after the other, whatever replacing one does beside it.
-/

namespace EntityQuery

inductive Comparison where
  | equals
  | greater
  | lesser
  | greaterEquals
  | lesserEquals
  | like
  | isIn
  deriving DecidableEq

def Comparison.symbol : Comparison → String
  | equals => "="
  | greater => ">"
  | lesser => "<"
  | greaterEquals => ">="
  | lesserEquals => "<="
  | like => "like"
  | isIn => "in"

inductive Condition (V : Type) where
  | compare (field : String) (op : Comparison) (value : V)
  /-- Both ends count as inside. -/
  | between (field : String) (low high : V)
  | all (items : List (Condition V))
  | any (items : List (Condition V))
  | not (c : Condition V)

namespace Condition

variable {V W : Type}

def and : Condition V → Condition V → Condition V
  | all items, c => all (items ++ [c])
  | b, c => all [b, c]

def or : Condition V → Condition V → Condition V
  | any items, c => any (items ++ [c])
  | b, c => any [b, c]

mutual

def values : Condition V → List V
  | .compare _ _ v => [v]
  | .between _ low high => [low, high]
  | .all items => itemValues items
  | .any items => itemValues items
  | .not c => values c

def itemValues : List (Condition V) → List V
  | [] => []
  | c :: cs => values c ++ itemValues cs

end

variable {m : Type → Type} [Monad m]

mutual

def substitute (field : String → String) (value : V → m W) : Condition V → m (Condition W)
  | .compare f op v => do pure (.compare (field f) op (← value v))
  | .between f low high => do
    let l ← value low
    let h ← value high
    pure (.between (field f) l h)
  | .all items => do pure (.all (← substituteItems field value items))
  | .any items => do pure (.any (← substituteItems field value items))
  | .not c => do pure (.not (← substitute field value c))

def substituteItems (field : String → String) (value : V → m W) : List (Condition V) → m (List (Condition W))
  | [] => pure []
  | c :: cs => do
    let d ← substitute field value c
    let ds ← substituteItems field value cs
    pure (d :: ds)

end

end Condition

end EntityQuery
