/-
  EntityQuery.Storage.Sorting — entities in the order of sort keys: by the first key,
  then by the second among those equal on the first, and so on.

  Values that do not compare count as equal, and entities equal on every key stay in
  the order they had; descending order turns a key's comparison around, not the
  order of equals.
-/

import EntityQuery.Storage.Filter

namespace EntityQuery

/-! ## Stable sorting -/

/-- Puts an item into a sorted list that is given back to front, past the items that
    it comes before. -/
def insertBack {α : Type} (before : α → α → Bool) (x : α) : List α → List α
  | [] => [x]
  | y :: ys => if before x y then y :: insertBack before x ys else x :: y :: ys

/-- Sorts by insertion; an item stays behind those before it that it equals. -/
def stableSort {α : Type} (before : α → α → Bool) (xs : List α) : List α :=
  (xs.foldl (fun back x => insertBack before x back) []).reverse

/-! ## Entities -/

namespace SortKey

def compare (s : SortKey) (a b : Entity) : Ordering :=
  let o := ((a.read s.field).compare? (b.read s.field)).getD .eq
  match s.direction with
  | .asc => o
  | .desc => o.swap

def compareAll : List SortKey → Entity → Entity → Ordering
  | [], _, _ => .eq
  | s :: ss, a, b => (s.compare a b).then (compareAll ss a b)

def sort (sorts : List SortKey) (es : List Entity) : List Entity :=
  stableSort (fun a b => compareAll sorts a b == .lt) es

end SortKey

end EntityQuery
