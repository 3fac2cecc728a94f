/-
  EntityQuery.Json.Skip — passing over a value that nobody wants.

  What is passed over need only be well formed from outside: brackets, commas and
  keys are checked, strings up to their escapes, numbers up to their shape. Lists
  and objects may lie as deep as they like, a number may be out of range, and half
  a surrogate pair may stand alone. Where a comma is followed by a closing bracket
  it is the missing item that is at fault.
-/

import EntityQuery.Json.Reader

namespace EntityQuery.Json

inductive Frame where
  | list
  | object
  deriving DecidableEq

def Frame.closer : Frame → Char
  | list => ']'
  | object => '\x7d'

def Frame.endCause : Frame → Cause
  | list => .endInList
  | object => .endInObject

def Frame.commaCause : Frame → Cause
  | list => .expectedListEnd
  | object => .expectedObjectEnd

/-- What may come next, inside the lists and objects that are open. -/
inductive Expecting where
  | value
  /-- Right after an opening bracket. -/
  | firstItem
  /-- Right after a value. -/
  | separator

structure Skipping where
  frames : List Frame
  expecting : Expecting

abbrev Skip := Except Fault (List Char)

def skipFault (cause : Cause) (rest : List Char) (bytes : Nat) : Except Fault α := .error ⟨cause, rest, bytes⟩

/-! ## Leaves -/

/-- Passes over a string up to its closing quote; `fuel` bounds its escapes and characters. -/
def skipString : Nat → List Char → Skip
  | 0, _ | _, [] => skipFault .endInString [] 0
  | fuel + 1, c :: cs =>
    if c == '"' then .ok cs
    else if c == '\\' then
      match cs with
      | [] => skipFault .endInString [] 0
      | e :: r =>
        if e == 'u' then (hexEscape r).bind fun (_, rest) => skipString fuel rest
        else if (shortEscape? e).isSome then skipString fuel r
        else skipFault .invalidEscape (e :: r) 1
    else if c.toNat < 0x20 then skipFault .controlCharacter (c :: cs) 0
    else skipString fuel cs

def skipPowerDigits : List Char → Skip
  | [] => skipFault .invalidNumber [] 0
  | c :: cs => if c.isDigit then .ok (cs.dropWhile Char.isDigit) else skipFault .invalidNumber (c :: cs) 1

def skipPower : List Char → Skip
  | '+' :: cs | '-' :: cs => skipPowerDigits cs
  | cs => skipPowerDigits cs

def skipFloatEnd : List Char → Skip
  | 'e' :: cs | 'E' :: cs => skipPower cs
  | cs => .ok cs

/-- What may follow the whole part of a number. -/
def skipNumberEnd : List Char → Skip
  | '.' :: cs =>
    if startsWithDigit cs then skipFloatEnd (cs.dropWhile Char.isDigit) else skipFault .invalidNumber cs 1
  | cs => skipFloatEnd cs

/-- Passes over a number after its sign. -/
def skipNumber : List Char → Skip
  | [] => skipFault .invalidNumber [] 0
  | '0' :: cs => if startsWithDigit cs then skipFault .invalidNumber cs 1 else skipNumberEnd cs
  | c :: cs =>
    if c.isDigit then skipNumberEnd (cs.dropWhile Char.isDigit) else skipFault .invalidNumber (c :: cs) 1

/-! ## Values -/

/-- Passes over a field's name and colon. -/
def skipKey (cs : List Char) : Skip :=
  match skipSpace cs with
  | [] => skipFault .endInObject [] 0
  | c :: r =>
    if c == '"' then (skipString (r.length + 1) r).bind fun rest => (colon rest).map (·.2)
    else skipFault .keyNotString (c :: r) 1

/-- Goes to the next value inside the innermost list or object. -/
def skipToValue (frames : List Frame) (cs : List Char) : Except Fault (Skipping × List Char) :=
  match frames.head? with
  | some .object => (skipKey cs).map fun rest => (⟨frames, .value⟩, rest)
  | _ => .ok (⟨frames, .value⟩, cs)

/-- A value, or the bracket that opens one. -/
def skipValueStart (frames : List Frame) (cs : List Char) : Except Fault (Skipping × List Char) :=
  let done (r : Skip) : Except Fault (Skipping × List Char) := r.map fun rest => (⟨frames, .separator⟩, rest)
  match cs with
  | [] => skipFault .endInValue [] 0
  | c :: r =>
    if c == 'n' then done ((word () ['u', 'l', 'l'] r).map (·.2))
    else if c == 't' then done ((word () ['r', 'u', 'e'] r).map (·.2))
    else if c == 'f' then done ((word () ['a', 'l', 's', 'e'] r).map (·.2))
    else if c == '-' then done (skipNumber r)
    else if c.isDigit then done (skipNumber (c :: r))
    else if c == '"' then done (skipString (r.length + 1) r)
    else if c == '[' then .ok (⟨.list :: frames, .firstItem⟩, r)
    else if c == '\x7b' then .ok (⟨.object :: frames, .firstItem⟩, r)
    else skipFault .expectedValue (c :: r) 1

/-- One step inside an open list or object, or to the first bracket of a value. -/
def Skipping.step (s : Skipping) (cs : List Char) : Except Fault (Skipping × List Char) :=
  match s.expecting, s.frames with
  | .value, frames => skipValueStart frames (skipSpace cs)
  | _, [] => .ok (s, cs)
  | .firstItem, frame :: outer =>
    match skipSpace cs with
    | [] => skipFault frame.endCause [] 0
    | c :: r => if c == frame.closer then .ok (⟨outer, .separator⟩, r) else skipToValue (frame :: outer) (c :: r)
  | .separator, frame :: outer =>
    match skipSpace cs with
    | [] => skipFault frame.endCause [] 0
    | c :: r =>
      if c == ',' then skipToValue (frame :: outer) r
      else if c == frame.closer then .ok (⟨outer, .separator⟩, r)
      else skipFault frame.commaCause (c :: r) 1

def Skipping.isDone (s : Skipping) : Bool :=
  match s.expecting, s.frames with
  | .separator, [] => true
  | _, _ => false

def skipFrom : Nat → Skipping → List Char → Skip
  | 0, _, _ => skipFault .endInValue [] 0
  | fuel + 1, s, cs => if s.isDone then .ok cs else (s.step cs).bind fun (s, rest) => skipFrom fuel s rest

/-- Passes over one value. Every step but the last takes a character, and a key goes
    with the comma or the bracket before it. -/
def skipValue (cs : List Char) : Skip := skipFrom (2 * cs.length + 2) ⟨[], .value⟩ cs

end EntityQuery.Json
