/-
  EntityQuery.Paging — pages, sorts and limits that come with a call instead of the
  query's text.

  They are collected from the arguments of the call in order: sorts add up, those of
  a page request included; of page requests and of limits the last one counts. Sorts
  follow those of the text. The window replaces that of the text, and a limit goes
  before a page. Counts stop at the greatest number of 64 bits.
-/

import EntityQuery.Query.Basic
import EntityQuery.Value.Basic

namespace EntityQuery

/-- The greatest count. -/
def countLimit : Nat := 0xFFFFFFFFFFFFFFFF

/-- A page of results; the first is page 1. -/
structure PageRequest where
  page : Nat
  size : Nat
  sorts : List SortKey
  deriving DecidableEq

/-- How many results come before the page. -/
def PageRequest.skip (p : PageRequest) : Nat := min ((p.page - 1) * p.size) countLimit

/-- A window of results; the first result is number 1. -/
structure Limit where
  start : Nat
  maxResults : Nat
  deriving DecidableEq

def Limit.of (maxResults : Nat) : Limit := ⟨1, maxResults⟩

/-- From one result to another, both included. -/
def Limit.range (start last : Nat) : Limit := ⟨start, min (last - start + 1) countLimit⟩

/-- How many results come before the window. -/
def Limit.skip (l : Limit) : Nat := l.start - 1

inductive Argument where
  | page (p : PageRequest)
  | sort (s : SortKey)
  | sorts (ss : List SortKey)
  | limit (l : Limit)
  /-- An ordinary argument of the call, which says nothing here. -/
  | value (v : Value)

structure Paging where
  page : Option PageRequest
  sorts : List SortKey
  limit : Option Limit
  deriving DecidableEq

namespace Paging

def empty : Paging := ⟨none, [], none⟩

def add (p : Paging) : Argument → Paging
  | .page r => { p with page := some r, sorts := p.sorts ++ r.sorts }
  | .sort s => { p with sorts := p.sorts ++ [s] }
  | .sorts ss => { p with sorts := p.sorts ++ ss }
  | .limit l => { p with limit := some l }
  | .value _ => p

def ofArguments (arguments : List Argument) : Paging := arguments.foldl add empty

def isEmpty (p : Paging) : Bool := p.page.isNone && p.sorts.isEmpty && p.limit.isNone

def isSortEmpty (p : Paging) : Bool := p.sorts.isEmpty

/-- Sorts without a page; a limit does not count. -/
def hasOnlySort (p : Paging) : Bool := p.page.isNone && !p.sorts.isEmpty

/-- How many results to skip and how many to take at most, where that is said. -/
def window? (p : Paging) : Option (Nat × Nat) :=
  match p.limit with
  | some l => some (l.skip, l.maxResults)
  | none => p.page.map fun r => (r.skip, r.size)

variable {V : Type}

/-- Adds to a select what was asked for beside it; `field` names the sort fields. -/
def apply (p : Paging) (field : String → String) (q : SelectQuery V) : SelectQuery V :=
  let q := { q with sorts := q.sorts ++ p.sorts.map (·.rename field) }
  match p.window? with
  | some (skip, limit) => { q with skip := some skip, limit := some limit }
  | none => q

end Paging

end EntityQuery
