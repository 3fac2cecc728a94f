/-
  EntityQuery.Query.Outline — a parsed query as a tree of all its parts, for a reader
  who wants to see how a text was understood.
-/

import EntityQuery.Query.Basic
import EntityQuery.Text.Outline
import EntityQuery.Text.Quoted

namespace EntityQuery

namespace Outline

def text (s : String) : Outline := leaf (Text.quoted s)

def number (n : Int) : Outline := leaf (toString n)

def optional {α : Type} (f : α → Outline) : Option α → Outline
  | none => leaf "None"
  | some a => wrap "Some" [f a]

end Outline

open Outline (leaf wrap record list text number optional)

def Literal.outline : Literal → Outline
  | string s => wrap "String" [text s]
  | integer n => wrap "Integer" [number n.toInt]
  | float x => wrap "Float" [leaf (FloatLayout.outline.write x)]
  | boolean b => wrap "Boolean" [leaf (if b then "true" else "false")]
  | null => leaf "Null"
  | json t => wrap "Json" [text t]

mutual

def Operand.outline : Operand → Outline
  | .literal l => wrap "Literal" [l.outline]
  | .param name => wrap "Param" [text name]
  | .convert l typeName => record "Convert" [("value", l.outline), ("type_name", text typeName)]
  | .list items => wrap "Array" [Outline.list (Operand.outlines items)]

def Operand.outlines : List Operand → List Outline
  | [] => []
  | o :: os => o.outline :: Operand.outlines os

end

def Comparison.outline : Comparison → Outline
  | equals => leaf "Equals"
  | greater => leaf "Greater"
  | lesser => leaf "Lesser"
  | greaterEquals => leaf "GreaterEquals"
  | lesserEquals => leaf "LesserEquals"
  | like => leaf "Like"
  | isIn => leaf "In"

mutual

def Condition.outline : Condition Operand → Outline
  | .compare field op v => record "Compare" [("field", text field), ("op", op.outline), ("value", v.outline)]
  | .between field low high =>
    record "Between" [("field", text field), ("low", low.outline), ("high", high.outline)]
  | .all items => wrap "And" [list (Condition.outlines items)]
  | .any items => wrap "Or" [list (Condition.outlines items)]
  | .not c => wrap "Not" [c.outline]

def Condition.outlines : List (Condition Operand) → List Outline
  | [] => []
  | c :: cs => c.outline :: Condition.outlines cs

end

def Direction.outline : Direction → Outline
  | asc => leaf "Asc"
  | desc => leaf "Desc"

def SortKey.outline (s : SortKey) : Outline :=
  record "Sort" [("field", text s.field), ("direction", s.direction.outline)]

namespace Query

def outlineWhere (c : Option (Condition Operand)) : Outline :=
  optional (fun c => record "Where" [("condition", c.outline)]) c

def outlineAssignments (items : List (Assignment Operand)) : Outline :=
  list (items.map fun a => record "UpdateItem" [("field", text a.field), ("value", a.value.outline)])

def outlineKeys (keys : List Operand) : Outline := list (keys.map (·.outline))

def outline : Query Operand → Outline
  | .get keys => wrap "Get" [record "GetQuery" [("keys", outlineKeys keys)]]
  | .delete keys => wrap "Delete" [record "DeleteQuery" [("keys", outlineKeys keys)]]
  | .select q =>
    wrap "Select" [record "SelectQuery"
      [("entity", text q.entity), ("fields", list (q.fields.map text)), ("condition", outlineWhere q.condition),
       ("sorts", list (q.sorts.map (·.outline))), ("limit", optional (fun n => number n) q.limit),
       ("skip", optional (fun n => number n) q.skip)]]
  | .update q =>
    wrap "Update" [record "UpdateQuery"
      [("entity", text q.entity), ("set", outlineAssignments q.set), ("condition", outlineWhere q.condition)]]
  | .insert q =>
    wrap "Insert" [record "InsertQuery" [("entity", text q.entity), ("items", outlineAssignments q.items)]]

end Query

end EntityQuery
