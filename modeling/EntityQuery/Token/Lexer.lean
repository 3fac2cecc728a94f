/-
  EntityQuery.Token.Lexer — query text into tokens.

  (1) Lexemes. `scan` reads one lexeme at the front of a text that starts with no
  blank: what it is, or why it is none, the characters taken and those left. The
  two always make up the text (`scan_taken`). A string ends at the next quote like
  its first, without escapes; a JSON literal runs to the bracket that closes its
  first one, brackets in its strings aside; a number is digits with at most one
  point between digits, and a minus only right before a digit.

  (2) The feed. Reading on after a fault goes on from where the fault left the
  text; a fault that takes nothing, and the end, are met again and again. `Feed` is
  all that reading a text can give: finitely many readings, then one ending for
  good. Every reading lies at the place where its text starts.
-/

import EntityQuery.Error
import EntityQuery.Text.Letter
import EntityQuery.Number.Numeral

namespace EntityQuery.Token

/-! ## (1) Lexemes -/

structure Scan where
  outcome : Except SyntaxFault TokenKind
  taken : List Char
  rest : List Char

/-- A lexeme of one character or two. -/
def Scan.mark (m : Mark) (taken rest : List Char) : Scan := ⟨.ok (.mark m), taken, rest⟩

/-- After an opening quote: up to the next one like it. -/
def scanString (quote : Char) (cs : List Char) : Scan :=
  let body := cs.takeWhile (· != quote)
  match cs.dropWhile (· != quote) with
  | [] => ⟨.error .unterminatedString, quote :: body, []⟩
  | q :: rest => ⟨.ok (.string (String.ofList body)), quote :: body ++ [q], rest⟩

inductive SpanEnd where
  | closed
  | mismatched (c : Char)
  | unclosed
  deriving DecidableEq

inductive SpanMode where
  | outside
  | inString
  | escaped
  deriving DecidableEq

/-- What a character inside quotes leads to. -/
def SpanMode.inQuotes (c : Char) : SpanMode :=
  if c == '\\' then .escaped else if c == '"' then .outside else .inString

/-- The brackets still to be closed, after a character outside quotes that closes none. -/
def openBracket (closers : List Char) (c : Char) : List Char :=
  if c == '\x7b' then '\x7d' :: closers else if c == '[' then ']' :: closers else closers

/-- Runs to the bracket that closes the last one open: how that went, the characters
    up to it, and those left. -/
def span (closers : List Char) (mode : SpanMode) : List Char → SpanEnd × List Char × List Char
  | [] => (.unclosed, [], [])
  | c :: cs =>
    let goOn (closers : List Char) (mode : SpanMode) :=
      let (e, taken, rest) := span closers mode cs
      (e, c :: taken, rest)
    match mode with
    | .escaped => goOn closers .inString
    | .inString => goOn closers (.inQuotes c)
    | .outside =>
      if c == '"' then goOn closers .inString
      else if c == '\x7d' || c == ']' then
        match closers with
        | d :: ds =>
          if d != c then (.mismatched c, [c], cs)
          else if ds.isEmpty then (.closed, [c], cs)
          else goOn ds .outside
        | [] => (.mismatched c, [c], cs)
      else goOn (openBracket closers c) .outside

def scanJson (cs : List Char) : Scan :=
  let (e, taken, rest) := span [] .outside cs
  match e with
  | .closed => ⟨.ok (.json (String.ofList taken)), taken, rest⟩
  | .mismatched c => ⟨.error (.mismatchedCloser c), taken, rest⟩
  | .unclosed => ⟨.error .unclosedJson, taken, rest⟩

/-- The digits of a number's whole part, its point and the digits after that. -/
def numeralPart (cs : List Char) : List Char × List Char :=
  let (whole, rest) := Numeral.splitDigits cs
  match rest with
  | '.' :: d :: r =>
    if d.isDigit then
      let (fraction, rest) := Numeral.splitDigits (d :: r)
      (whole ++ '.' :: fraction, rest)
    else (whole, rest)
  | _ => (whole, rest)

def numberKind (taken : List Char) : Except SyntaxFault TokenKind :=
  let fault : SyntaxFault := .invalidNumber (String.ofList taken)
  if taken.contains '.' then ((Numeral.readBinary64? taken).map TokenKind.float).elim (.error fault) .ok
  else ((Numeral.readInt64? taken).map TokenKind.integer).elim (.error fault) .ok

/-- Takes a minus off the front. -/
def splitMinus : List Char → List Char × List Char
  | '-' :: cs => (['-'], cs)
  | cs => ([], cs)

def scanNumber (cs : List Char) : Scan :=
  let (sign, body) := splitMinus cs
  let (digits, rest) := numeralPart body
  ⟨numberKind (sign ++ digits), sign ++ digits, rest⟩

/-- After a marker: the characters of the class make up the parameter's name. -/
def scanParam (marker : Char) (inName : Char → Bool) (cs : List Char) : Scan :=
  let name := cs.takeWhile inName
  let rest := cs.dropWhile inName
  ⟨if name.isEmpty then .error .unnamedParameter else .ok (.param (String.ofList name)), marker :: name, rest⟩

def nameKind (name : String) : TokenKind := (Keyword.lookup? name).elim (.identifier name) .keyword

def scanName (cs : List Char) : Scan :=
  let name := cs.takeWhile Text.isNamePart
  ⟨.ok (nameKind (String.ofList name)), name, cs.dropWhile Text.isNamePart⟩

def startsWithDigit : List Char → Bool
  | c :: _ => c.isDigit
  | [] => false

/-- A mark that an equals sign may make longer. -/
def scanMark (short long : Mark) (c : Char) : List Char → Scan
  | '=' :: rest => .mark long [c, '='] rest
  | rest => .mark short [c] rest

/-- Reads the lexeme at the front. A fault may take nothing. -/
def scan (c : Char) (cs : List Char) : Scan :=
  if c == '"' || c == '\'' then scanString c cs
  else if c == '\x7b' || c == '[' then scanJson (c :: cs)
  else if c == '@' then scanParam c Text.isNamePart cs
  else if c == '?' then scanParam c Char.isDigit cs
  else if c.isDigit || (c == '-' && startsWithDigit cs) then scanNumber (c :: cs)
  else if c == '=' then .mark .eq [c] cs
  else if c == '>' then scanMark .gt .gtEq c cs
  else if c == '<' then scanMark .lt .ltEq c cs
  else if c == '*' then .mark .star [c] cs
  else if c == ',' then .mark .comma [c] cs
  else if c == '(' then .mark .lparen [c] cs
  else if c == ')' then .mark .rparen [c] cs
  else if c == '.' then .mark .dot [c] cs
  else if Text.isNameStart c then scanName (c :: cs)
  else if c == '\x7d' || c == ']' then ⟨.error (.strayCloser c), [], c :: cs⟩
  else ⟨.error (.unexpectedCharacter c), [], c :: cs⟩

/-- What holds of every kind of lexeme and of the faults that take nothing holds of what is
    scanned. -/
theorem scan_cases {P : Scan → Prop} (c : Char) (cs : List Char)
    (string : P (scanString c cs)) (json : P (scanJson (c :: cs)))
    (named : c = '@' → P (scanParam c Text.isNamePart cs)) (numbered : c = '?' → P (scanParam c Char.isDigit cs))
    (number : (c.isDigit || (c == '-' && startsWithDigit cs)) = true → P (scanNumber (c :: cs)))
    (mark : ∀ m, P (.mark m [c] cs)) (longMark : ∀ short long, P (scanMark short long c cs))
    (name : Text.isNameStart c = true → P (scanName (c :: cs)))
    (closer : P ⟨.error (.strayCloser c), [], c :: cs⟩)
    (unexpected : P ⟨.error (.unexpectedCharacter c), [], c :: cs⟩) : P (scan c cs) := by
  have ite : ∀ {p : Prop} [Decidable p] {a b : Scan}, (p → P a) → P b → P (if p then a else b) := by
    intro p _ a b ha hb
    split
    · next hp => exact ha hp
    · exact hb
  unfold scan
  exact ite (fun _ => string) <| ite (fun _ => json) <| ite (fun h => named (beq_iff_eq.mp h)) <|
    ite (fun h => numbered (beq_iff_eq.mp h)) <| ite number <| ite (fun _ => mark _) <| ite (fun _ => longMark _ _) <|
    ite (fun _ => longMark _ _) <| ite (fun _ => mark _) <| ite (fun _ => mark _) <| ite (fun _ => mark _) <|
    ite (fun _ => mark _) <| ite (fun _ => mark _) <| ite name <| ite (fun _ => closer) unexpected

theorem scanNumber_cases (cs : List Char) :
    (∃ i, (scanNumber cs).outcome = .ok (.integer i)) ∨ (∃ x, (scanNumber cs).outcome = .ok (.float x)) ∨
      (scanNumber cs).outcome = .error (.invalidNumber (String.ofList (scanNumber cs).taken)) := by
  show (∃ i, numberKind (scanNumber cs).taken = _) ∨ (∃ x, numberKind (scanNumber cs).taken = _) ∨
    numberKind (scanNumber cs).taken = _
  unfold numberKind
  simp only
  split
  · cases Numeral.readBinary64? (scanNumber cs).taken <;> simp
  · cases Numeral.readInt64? (scanNumber cs).taken <;> simp

theorem span_taken (closers : List Char) (mode : SpanMode) (cs : List Char) :
    (span closers mode cs).2.1 ++ (span closers mode cs).2.2 = cs := by
  induction cs generalizing closers mode with
  | nil => rfl
  | cons c cs ih =>
    unfold span
    cases mode <;> simp only
    · split
      · simp [ih]
      · split
        · split
          · split
            · rfl
            · split
              · rfl
              · simp [ih]
          · rfl
        · simp [ih]
    · simp [ih]
    · simp [ih]

theorem splitMinus_append (cs : List Char) : (splitMinus cs).1 ++ (splitMinus cs).2 = cs := by
  unfold splitMinus; split <;> rfl

theorem numeralPart_append (cs : List Char) : (numeralPart cs).1 ++ (numeralPart cs).2 = cs := by
  have h := List.takeWhile_append_dropWhile (p := Char.isDigit) (l := cs)
  unfold numeralPart
  simp only [Numeral.splitDigits]
  split
  · next d r hr =>
    split
    · rw [hr] at h
      simpa using h
    · exact h
  · exact h

/-- A scan that takes characters off the front of a text and leaves the others. -/
def Scan.Splits (s : Scan) (cs : List Char) : Prop := s.taken ++ s.rest = cs

theorem scanString_splits (c : Char) (cs : List Char) : (scanString c cs).Splits (c :: cs) := by
  have h := List.takeWhile_append_dropWhile (p := (· != c)) (l := cs)
  unfold scanString Scan.Splits
  split
  · next hd => rw [hd] at h; simpa using h
  · next hd => rw [hd] at h; simpa using h

theorem scanJson_splits (cs : List Char) : (scanJson cs).Splits cs := by
  have h := span_taken [] .outside cs
  unfold scanJson Scan.Splits
  simp only
  split <;> simpa using h

theorem scanNumber_splits (cs : List Char) : (scanNumber cs).Splits cs := by
  simp [Scan.Splits, scanNumber, numeralPart_append, splitMinus_append]

theorem scanMark_splits (short long : Mark) (c : Char) (cs : List Char) :
    (scanMark short long c cs).Splits (c :: cs) := by
  unfold scanMark
  split <;> simp [Scan.Splits, Scan.mark]

theorem scan_splits (c : Char) (cs : List Char) : (scan c cs).Splits (c :: cs) := by
  have hparam : ∀ p : Char → Bool, (scanParam c p cs).Splits (c :: cs) := by simp [Scan.Splits, scanParam]
  have hname : (scanName (c :: cs)).Splits (c :: cs) := by simp [Scan.Splits, scanName]
  exact scan_cases (P := (·.Splits (c :: cs))) c cs (scanString_splits c cs) (scanJson_splits _) (fun _ => hparam _)
    (fun _ => hparam _) (fun _ => scanNumber_splits _) (fun _ => rfl) (fun _ _ => scanMark_splits _ _ c cs)
    (fun _ => hname) rfl rfl

theorem scan_taken (c : Char) (cs : List Char) : (scan c cs).taken ++ (scan c cs).rest = c :: cs := scan_splits c cs

theorem scan_rest_shorter {c : Char} {cs : List Char} (h : (scan c cs).taken.isEmpty = false) :
    (scan c cs).rest.length < (c :: cs).length := by
  have ht := congrArg List.length (scan_taken c cs)
  have hp : 0 < (scan c cs).taken.length := by
    cases hs : (scan c cs).taken with
    | nil => simp [hs] at h
    | cons t ts => simp
  simp only [List.length_append] at ht
  omega

/-! ## (2) The feed -/

abbrev Reading := Except QueryError Token

/-- A scanned lexeme at its place. -/
def Scan.reading (s : Scan) (position : Position) : Reading :=
  match s.outcome with
  | .ok kind => .ok ⟨kind, String.ofList s.taken, position⟩
  | .error fault => .error (.malformed fault position)

/-- What reading ends in: the end of the text, or a fault that takes nothing. -/
inductive Ending where
  | atEnd (position : Position)
  | stuck (error : QueryError)

def Ending.reading : Ending → Reading
  | atEnd position => .ok ⟨.endOfInput, "", position⟩
  | stuck error => .error error

/-- The readings still to come, in order, and what comes after them for good. -/
structure Feed where
  upcoming : List Reading
  ending : Ending

namespace Feed

def next (f : Feed) : Reading × Feed :=
  match f.upcoming with
  | [] => (f.ending.reading, f)
  | r :: rest => (r, { f with upcoming := rest })

/-- Reads a text from a place on. -/
def read (position : Position) (cs : List Char) : Feed :=
  let here := position.after (cs.takeWhile Text.isBlank)
  match h : cs.dropWhile Text.isBlank with
  | [] => ⟨[], .atEnd here⟩
  | c :: r =>
    if hs : (scan c r).taken.isEmpty then
      match (scan c r).outcome with
      | .ok _ => ⟨[], .atEnd here⟩
      | .error fault => ⟨[], .stuck (.malformed fault here)⟩
    else
      have : (scan c r).rest.length < cs.length := by
        have hlen := (List.dropWhile_suffix (l := cs) Text.isBlank).length_le
        rw [h] at hlen
        exact Nat.lt_of_lt_of_le (scan_rest_shorter (Bool.eq_false_iff.mpr hs)) hlen
      let f := read (here.after (scan c r).taken) (scan c r).rest
      { f with upcoming := (scan c r).reading here :: f.upcoming }
termination_by cs.length

def ofText (text : String) : Feed := read .start text.toList

/-- The first readings, so many of them. -/
def take : Nat → Feed → List Reading
  | 0, _ => []
  | n + 1, f => f.next.1 :: take n f.next.2

end Feed

/-- The tokens up to the first fault, if there is one. -/
def collect : List Reading → Except QueryError (List Token)
  | [] => .ok []
  | .ok t :: rest => (collect rest).map (t :: ·)
  | .error e :: _ => .error e

/-- All tokens of a text, the end of input last. -/
def tokenize (text : String) : Except QueryError (List Token) :=
  let f := Feed.ofText text
  collect (f.upcoming ++ [f.ending.reading])

end EntityQuery.Token
