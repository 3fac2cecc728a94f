/-
  EntityQuery.Naming.Camel — the parts of a name in camel case.

  A part ends before a capital that follows a small letter, and before the last
  capital of a run that a small letter follows: address|ZIP|Code. Letters here are
  those of ASCII; everything else neither ends a part nor starts one.

  Main fact: the parts make up the name (`flatten_splitCamel`).
-/

namespace EntityQuery.Naming

/-- Whether a part ends between two characters, given the one after them. -/
def isBoundary (before c : Char) (after? : Option Char) : Bool :=
  c.isUpper && (before.isLower || (before.isUpper && after?.any Char.isLower))

/-- The parts of what follows a character, the current part held in reverse. -/
def splitAfter (before : Char) (part : List Char) : List Char → List (List Char)
  | [] => [part.reverse]
  | c :: cs =>
    if isBoundary before c cs.head? then part.reverse :: splitAfter c [c] cs
    else splitAfter c (c :: part) cs

def splitCamel : List Char → List (List Char)
  | [] => []
  | c :: cs => splitAfter c [c] cs

theorem flatten_splitAfter (before : Char) (part cs : List Char) :
    (splitAfter before part cs).flatten = part.reverse ++ cs := by
  induction cs generalizing before part with
  | nil => simp [splitAfter]
  | cons c cs ih =>
    unfold splitAfter
    split <;> simp [ih]

theorem flatten_splitCamel (cs : List Char) : (splitCamel cs).flatten = cs := by
  cases cs with
  | nil => rfl
  | cons c cs => simp [splitCamel, flatten_splitAfter]

end EntityQuery.Naming
