/-
  EntityQuery.Proofs.Grammar.Phrase — the grammar of the query language.

  A phrase is a tree of the grammar. Its tokens spell it, and it stands for a part of
  a query; the derivations of a sequence of tokens are the phrases it spells.

    query      ::= get value, … | delete value, … | select | update | insert
    select     ::= select [* | path, …] from NAME [where condition]
                   [order by key, …] [skip COUNT] [limit COUNT]
    update     ::= update NAME set assignment, … [where condition]
    insert     ::= insert NAME ( assignment, … )
    key        ::= path [asc | desc]
    assignment ::= path = value
    condition  ::= conjunction or …
    conjunction ::= term and …
    term       ::= not term | ( condition ) | comparison
    comparison ::= path relation value | path in members | path between value and value
    members    ::= value | ( value, … )
    value      ::= literal | PARAMETER | convert ( convertible , path )
    path       ::= NAME . …

  A term knows how many negations and brackets may be open in it at once, so a tree
  that lies too deep cannot be built.
-/

import EntityQuery.Query.Parser

namespace EntityQuery

/-! ## Chains -/

/-- One item or more, with a separator before every further one. -/
structure Chain (α : Type) where
  head : α
  tail : List α

namespace Chain

variable {α β : Type}

def items (c : Chain α) : List α := c.head :: c.tail

/-- The tokens of further items. -/
def further (separator : TokenKind) (tokens : α → List TokenKind) (tail : List α) : List TokenKind :=
  tail.flatMap fun a => separator :: tokens a

def tokens (separator : TokenKind) (tokens : α → List TokenKind) (c : Chain α) : List TokenKind :=
  tokens c.head ++ further separator tokens c.tail

/-- Joins what the items stand for, from the left. -/
def joined (join : β → β → β) (meaning : α → β) (c : Chain α) : β :=
  (c.tail.map meaning).foldl join (meaning c.head)

end Chain

/-- Items after commas. -/
def listTokens {α : Type} (tokens : α → List TokenKind) (c : Chain α) : List TokenKind := c.tokens (.mark .comma) tokens

def pathTokens (p : Chain String) : List TokenKind := p.tokens (.mark .dot) fun name => [.identifier name]

def pathName (p : Chain String) : String := ".".intercalate p.items

/-! ## Values -/

inductive LiteralPhrase where
  | string (s : String)
  | integer (n : Int64)
  | float (x : Binary64)
  | boolean (b : Bool)
  | null
  /-- A JSON literal whose text is JSON. -/
  | json (text : String) (v : Json) (reads : Json.parseText text = .ok v)

namespace LiteralPhrase

def token : LiteralPhrase → TokenKind
  | string s => .string s
  | integer n => .integer n
  | float x => .float x
  | boolean true => .keyword .true
  | boolean false => .keyword .false
  | null => .keyword .null
  | json text _ _ => .json text

def literal : LiteralPhrase → Literal
  | string s => .string s
  | integer n => .integer n
  | float x => .float x
  | boolean b => .boolean b
  | null => .null
  | json _ v _ => .json v.toText

end LiteralPhrase

/-- What may be converted: a string or a number. -/
inductive ConvertiblePhrase where
  | string (s : String)
  | integer (n : Int64)
  | float (x : Binary64)

namespace ConvertiblePhrase

def token : ConvertiblePhrase → TokenKind
  | string s => .string s
  | integer n => .integer n
  | float x => .float x

def literal : ConvertiblePhrase → Literal
  | string s => .string s
  | integer n => .integer n
  | float x => .float x

end ConvertiblePhrase

inductive ValuePhrase where
  | literal (l : LiteralPhrase)
  | param (name : String)
  | convert (c : ConvertiblePhrase) (typeName : Chain String)

namespace ValuePhrase

def tokens : ValuePhrase → List TokenKind
  | literal l => [l.token]
  | param name => [.param name]
  | convert c typeName =>
    .keyword .convert :: .mark .lparen :: c.token :: .mark .comma :: (pathTokens typeName ++ [.mark .rparen])

def operand : ValuePhrase → Operand
  | literal l => .literal l.literal
  | param name => .param name
  | convert c typeName => .convert c.literal (pathName typeName)

end ValuePhrase

inductive MembersPhrase where
  | one (v : ValuePhrase)
  | list (vs : Chain ValuePhrase)

namespace MembersPhrase

def tokens : MembersPhrase → List TokenKind
  | one v => v.tokens
  | list vs => .mark .lparen :: (listTokens ValuePhrase.tokens vs ++ [.mark .rparen])

def operand : MembersPhrase → Operand
  | one v => v.operand
  | list vs => .list (vs.items.map ValuePhrase.operand)

end MembersPhrase

/-! ## Comparisons -/

/-- The relations between a field and one value. -/
inductive Relation where
  | equals
  | greater
  | lesser
  | greaterEquals
  | lesserEquals
  | like

namespace Relation

def token : Relation → TokenKind
  | equals => .mark .eq
  | greater => .mark .gt
  | lesser => .mark .lt
  | greaterEquals => .mark .gtEq
  | lesserEquals => .mark .ltEq
  | like => .keyword .like

def comparison : Relation → Comparison
  | equals => .equals
  | greater => .greater
  | lesser => .lesser
  | greaterEquals => .greaterEquals
  | lesserEquals => .lesserEquals
  | like => .like

end Relation

/-- What is said of a field. -/
inductive PredicatePhrase where
  | relation (r : Relation) (v : ValuePhrase)
  | isIn (m : MembersPhrase)
  | between (low high : ValuePhrase)

def PredicatePhrase.tokens : PredicatePhrase → List TokenKind
  | relation r v => r.token :: v.tokens
  | isIn m => .keyword .in :: m.tokens
  | between low high => .keyword .between :: (low.tokens ++ .keyword .and :: high.tokens)

def PredicatePhrase.condition (field : String) : PredicatePhrase → Condition Operand
  | relation r v => .compare field r.comparison v.operand
  | isIn m => .compare field .isIn m.operand
  | between low high => .between field low.operand high.operand

structure ComparisonPhrase where
  field : Chain String
  predicate : PredicatePhrase

def ComparisonPhrase.tokens (c : ComparisonPhrase) : List TokenKind := pathTokens c.field ++ c.predicate.tokens

def ComparisonPhrase.condition (c : ComparisonPhrase) : Condition Operand := c.predicate.condition (pathName c.field)

/-! ## Conditions -/

/-- An or-chain of and-chains of terms. -/
abbrev ConditionOf (τ : Type) := Chain (Chain τ)

namespace ConditionOf

variable {τ : Type}

def tokens (term : τ → List TokenKind) (c : ConditionOf τ) : List TokenKind :=
  Chain.tokens (.keyword .or) (Chain.tokens (.keyword .and) term) c

def condition (term : τ → Condition Operand) (c : ConditionOf τ) : Condition Operand :=
  Chain.joined Condition.or (Chain.joined Condition.and term) c

end ConditionOf

/-- A term over the terms that may stand inside it. -/
inductive TermOver (τ : Type) where
  | comparison (c : ComparisonPhrase)
  | not (t : τ)
  | group (c : ConditionOf τ)

namespace TermOver

variable {τ : Type}

def tokens (inner : τ → List TokenKind) : TermOver τ → List TokenKind
  | comparison c => c.tokens
  | not t => .keyword .not :: inner t
  | group c => .mark .lparen :: (c.tokens inner ++ [.mark .rparen])

def condition (inner : τ → Condition Operand) : TermOver τ → Condition Operand
  | comparison c => c.condition
  | not t => .not (inner t)
  | group c => c.condition inner

end TermOver

/-- A term in which at most so many negations and brackets are open at once. -/
def TermPhrase : Nat → Type
  | 0 => TermOver Empty
  | levels + 1 => TermOver (TermPhrase levels)

namespace TermPhrase

def tokens : (levels : Nat) → TermPhrase levels → List TokenKind
  | 0 => TermOver.tokens Empty.elim
  | levels + 1 => TermOver.tokens (tokens levels)

def condition : (levels : Nat) → TermPhrase levels → Condition Operand
  | 0 => TermOver.condition Empty.elim
  | levels + 1 => TermOver.condition (condition levels)

end TermPhrase

abbrev ConditionPhrase := ConditionOf (TermPhrase Parser.maxNesting)

namespace ConditionPhrase

def tokens (c : ConditionPhrase) : List TokenKind := ConditionOf.tokens (TermPhrase.tokens Parser.maxNesting) c

def condition (c : ConditionPhrase) : Condition Operand :=
  ConditionOf.condition (TermPhrase.condition Parser.maxNesting) c

end ConditionPhrase

/-! ## Clauses -/

/-- What an optional part spells: nothing where it is left out. -/
def optionalTokens {α : Type} (tokens : α → List TokenKind) : Option α → List TokenKind
  | none => []
  | some a => tokens a

def whereTokens : Option ConditionPhrase → List TokenKind := optionalTokens fun c => .keyword .where :: c.tokens

structure SortPhrase where
  field : Chain String
  direction : Option Direction

def Direction.keyword : Direction → Keyword
  | asc => .asc
  | desc => .desc

namespace SortPhrase

def tokens (s : SortPhrase) : List TokenKind :=
  pathTokens s.field ++ optionalTokens (fun d => [.keyword d.keyword]) s.direction

def sortKey (s : SortPhrase) : SortKey := ⟨pathName s.field, s.direction.getD .asc⟩

end SortPhrase

def orderTokens : Option (Chain SortPhrase) → List TokenKind :=
  optionalTokens fun keys => .keyword .order :: .keyword .by :: listTokens SortPhrase.tokens keys

def sortKeys : Option (Chain SortPhrase) → List SortKey
  | none => []
  | some keys => keys.items.map SortPhrase.sortKey

/-- A whole number that is not negative. -/
abbrev CountPhrase := { n : Int64 // 0 ≤ n.toInt }

def countTokens (k : Keyword) : Option CountPhrase → List TokenKind :=
  optionalTokens fun n => [.keyword k, .integer n.1]

def countOf : Option CountPhrase → Option Nat := Option.map fun n => n.1.toInt.toNat

inductive SelectionPhrase where
  | star
  | nothing
  | paths (ps : Chain (Chain String))

namespace SelectionPhrase

def tokens : SelectionPhrase → List TokenKind
  | star => [.mark .star]
  | nothing => []
  | paths ps => listTokens pathTokens ps

def fields : SelectionPhrase → List String
  | star | nothing => []
  | paths ps => ps.items.map pathName

end SelectionPhrase

structure AssignmentPhrase where
  field : Chain String
  value : ValuePhrase

namespace AssignmentPhrase

def tokens (a : AssignmentPhrase) : List TokenKind := pathTokens a.field ++ .mark .eq :: a.value.tokens

def assignment (a : AssignmentPhrase) : Assignment Operand := ⟨pathName a.field, a.value.operand⟩

end AssignmentPhrase

/-! ## Queries -/

structure SelectPhrase where
  selection : SelectionPhrase
  entity : String
  condition : Option ConditionPhrase
  order : Option (Chain SortPhrase)
  skip : Option CountPhrase
  limit : Option CountPhrase

namespace SelectPhrase

/-- What stands after the name of the entity. -/
def clauses (s : SelectPhrase) : List TokenKind :=
  whereTokens s.condition ++ (orderTokens s.order ++ (countTokens .skip s.skip ++ countTokens .limit s.limit))

def tokens (s : SelectPhrase) : List TokenKind :=
  s.selection.tokens ++ .keyword .from :: .identifier s.entity :: s.clauses

def query (s : SelectPhrase) : SelectQuery Operand :=
  ⟨s.entity, s.selection.fields, s.condition.map ConditionPhrase.condition, sortKeys s.order, countOf s.skip,
   countOf s.limit⟩

end SelectPhrase

structure UpdatePhrase where
  entity : String
  set : Chain AssignmentPhrase
  condition : Option ConditionPhrase

namespace UpdatePhrase

def tokens (u : UpdatePhrase) : List TokenKind :=
  .identifier u.entity :: .keyword .set :: (listTokens AssignmentPhrase.tokens u.set ++ whereTokens u.condition)

def query (u : UpdatePhrase) : UpdateQuery Operand :=
  ⟨u.entity, u.set.items.map AssignmentPhrase.assignment, u.condition.map ConditionPhrase.condition⟩

end UpdatePhrase

structure InsertPhrase where
  entity : String
  items : Chain AssignmentPhrase

namespace InsertPhrase

def tokens (i : InsertPhrase) : List TokenKind :=
  .identifier i.entity :: .mark .lparen :: (listTokens AssignmentPhrase.tokens i.items ++ [.mark .rparen])

def query (i : InsertPhrase) : InsertQuery Operand := ⟨i.entity, i.items.items.map AssignmentPhrase.assignment⟩

end InsertPhrase

inductive QueryPhrase where
  | get (keys : Chain ValuePhrase)
  | delete (keys : Chain ValuePhrase)
  | select (s : SelectPhrase)
  | update (u : UpdatePhrase)
  | insert (i : InsertPhrase)

namespace QueryPhrase

def tokens : QueryPhrase → List TokenKind
  | get keys => .keyword .get :: listTokens ValuePhrase.tokens keys
  | delete keys => .keyword .delete :: listTokens ValuePhrase.tokens keys
  | select s => .keyword .select :: s.tokens
  | update u => .keyword .update :: u.tokens
  | insert i => .keyword .insert :: i.tokens

def query : QueryPhrase → Query Operand
  | get keys => .get (keys.items.map ValuePhrase.operand)
  | delete keys => .delete (keys.items.map ValuePhrase.operand)
  | select s => .select s.query
  | update u => .update u.query
  | insert i => .insert i.query

end QueryPhrase

/-! ## The end of input is no part of a phrase -/

def WithoutEnd {α : Type} (tokens : α → List TokenKind) : Prop := ∀ a, .endOfInput ∉ tokens a

section WithoutEnd

variable {α : Type} {tokens : α → List TokenKind}

theorem WithoutEnd.chain (h : WithoutEnd tokens) {separator : TokenKind} (hs : separator ≠ .endOfInput) :
    WithoutEnd (Chain.tokens separator tokens) := by
  intro c hm
  rcases List.mem_append.mp hm with hm | hm
  · exact h _ hm
  · obtain ⟨a, -, hm⟩ := List.mem_flatMap.mp hm
    rcases List.mem_cons.mp hm with hm | hm
    · exact hs hm.symm
    · exact h a hm

theorem WithoutEnd.list (h : WithoutEnd tokens) : WithoutEnd (listTokens tokens) := h.chain (by simp)

theorem WithoutEnd.optional (h : WithoutEnd tokens) : WithoutEnd (optionalTokens tokens) := by
  intro o
  cases o with
  | none => exact List.not_mem_nil
  | some a => exact h a

theorem path_withoutEnd : WithoutEnd pathTokens := WithoutEnd.chain (fun _ => by simp) (by simp)

theorem value_withoutEnd : WithoutEnd ValuePhrase.tokens := by
  intro v
  cases v with
  | literal l =>
    cases l with
    | boolean b => cases b <;> simp [ValuePhrase.tokens, LiteralPhrase.token]
    | _ => simp [ValuePhrase.tokens, LiteralPhrase.token]
  | param name => simp [ValuePhrase.tokens]
  | convert c t =>
    have := path_withoutEnd t
    cases c <;> simpa [ValuePhrase.tokens, ConvertiblePhrase.token] using this

theorem predicate_withoutEnd : WithoutEnd PredicatePhrase.tokens := by
  intro p
  cases p with
  | relation r v =>
    have := value_withoutEnd v
    cases r <;> simpa [PredicatePhrase.tokens, Relation.token] using this
  | isIn m =>
    cases m with
    | one v => simpa [PredicatePhrase.tokens, MembersPhrase.tokens] using value_withoutEnd v
    | list vs => simpa [PredicatePhrase.tokens, MembersPhrase.tokens] using value_withoutEnd.list vs
  | between low high => simpa [PredicatePhrase.tokens] using ⟨value_withoutEnd low, value_withoutEnd high⟩

theorem conditionOf_withoutEnd (h : WithoutEnd tokens) : WithoutEnd (ConditionOf.tokens tokens) :=
  (h.chain (by simp)).chain (by simp)

theorem termOver_withoutEnd (h : WithoutEnd tokens) : WithoutEnd (TermOver.tokens tokens) := by
  intro t
  cases t with
  | comparison c => simpa [TermOver.tokens, ComparisonPhrase.tokens] using ⟨path_withoutEnd _, predicate_withoutEnd _⟩
  | not t => simpa [TermOver.tokens] using h t
  | group c => simpa [TermOver.tokens] using conditionOf_withoutEnd h c

theorem term_withoutEnd (levels : Nat) : WithoutEnd (TermPhrase.tokens levels) := by
  induction levels with
  | zero => exact termOver_withoutEnd fun e => e.elim
  | succ levels ih => exact termOver_withoutEnd ih

theorem condition_withoutEnd : WithoutEnd ConditionPhrase.tokens := conditionOf_withoutEnd (term_withoutEnd _)

theorem where_withoutEnd : WithoutEnd whereTokens :=
  WithoutEnd.optional fun c => by simpa using condition_withoutEnd c

theorem order_withoutEnd : WithoutEnd orderTokens := by
  refine WithoutEnd.optional fun keys => ?_
  have hsort : WithoutEnd SortPhrase.tokens := by
    intro ⟨p, d⟩
    have := path_withoutEnd p
    cases d <;> simpa [SortPhrase.tokens, optionalTokens] using this
  simpa using hsort.list keys

theorem count_withoutEnd (k : Keyword) : WithoutEnd (countTokens k) := WithoutEnd.optional fun n => by simp

theorem assignments_withoutEnd : WithoutEnd (listTokens AssignmentPhrase.tokens) :=
  WithoutEnd.list fun a => by simpa [AssignmentPhrase.tokens] using ⟨path_withoutEnd _, value_withoutEnd _⟩

theorem select_withoutEnd : WithoutEnd SelectPhrase.tokens := by
  intro s
  have hselection : .endOfInput ∉ s.selection.tokens := by
    cases s.selection with
    | star => simp [SelectionPhrase.tokens]
    | nothing => simp [SelectionPhrase.tokens]
    | paths ps => exact path_withoutEnd.list ps
  simpa [SelectPhrase.tokens, SelectPhrase.clauses] using
    ⟨hselection, where_withoutEnd _, order_withoutEnd _, count_withoutEnd _ _, count_withoutEnd _ _⟩

theorem query_withoutEnd : WithoutEnd QueryPhrase.tokens := by
  intro q
  cases q with
  | get keys => simpa [QueryPhrase.tokens] using value_withoutEnd.list keys
  | delete keys => simpa [QueryPhrase.tokens] using value_withoutEnd.list keys
  | select s => simpa [QueryPhrase.tokens] using select_withoutEnd s
  | update u =>
    simpa [QueryPhrase.tokens, UpdatePhrase.tokens] using ⟨assignments_withoutEnd _, where_withoutEnd _⟩
  | insert i => simpa [QueryPhrase.tokens, InsertPhrase.tokens] using assignments_withoutEnd _

end WithoutEnd

end EntityQuery
