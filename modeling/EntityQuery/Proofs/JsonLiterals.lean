/-
  EntityQuery.Proofs.JsonLiterals — a JSON literal in a query ends where its JSON does, and
  is put into a form that stays as it is (`json_literal_settles`).

  Two readers meet such a literal. The lexer finds its end by brackets and quotes, and takes
  the text as it stands; the parser then reads this text as JSON and writes it again. What
  is written is JSON from bracket to bracket too, so both can meet it again.
-/

import EntityQuery.Proofs.Grammar.Parsing
import EntityQuery.Proofs.Json.Spans
import EntityQuery.Proofs.Json.Writing
import EntityQuery.Proofs.Lexing.Layout

namespace EntityQuery

open Token (Feed Reading)

namespace Json

/-- Whatever stands before and behind it, the text is one lexeme; alone, it is an operand
    with nothing behind it. -/
structure LiteralOf (text : String) (s : String) : Prop where
  lexeme (position : Position) (following : List Char) : Feed.read position (text.toList ++ following) =
    (Feed.read (position.after text.toList) following).cons (.ok ⟨.json text, text, position⟩)
  operand : ∃ m n, Parser.start text = .ok m ∧ Parser.value m = .ok (.literal (.json s)) n ∧ n.current.kind = .endOfInput

theorem literalOf_of_parse {text : String} {v : Json} (htext : Bracketed text.toList) (hv : parseText text = .ok v) :
    LiteralOf text v.toText := by
  have hlexeme : ∀ position following, Feed.read position (text.toList ++ following) =
      (Feed.read (position.after text.toList) following).cons (.ok ⟨.json text, text, position⟩) := by
    intro position following
    have hread := Token.read_piece (p := ⟨[], .json text, text.toList⟩) position nofun
      (scans_of_parse htext (parseText_eq_ok.mp hv) following)
    rwa [Token.Piece.token, String.ofList_toList] at hread
  refine ⟨hlexeme, ?_⟩
  let token : Token := ⟨.json text, text, .start⟩
  let stop : Feed := ⟨[], .atEnd (Position.start.after text.toList)⟩
  have hfeed : Feed.ofText text = stop.cons (.ok token) := by
    have halone := hlexeme .start []
    rwa [List.append_nil, Token.read_blank _ (List.forall_mem_nil _)] at halone
  have hstart : Parser.start text = .ok ⟨token, stop⟩ := by
    rw [Parser.start, hfeed]
    rfl
  refine ⟨⟨token, stop⟩, ⟨⟨.endOfInput, "", Position.start.after text.toList⟩, stop⟩, hstart, ?_, rfl⟩
  rw [Parser.value_of_literal (by simp [token]) (by simp [token])]
  refine Parser.bind_eq_ok.mpr ⟨_, _, Parser.literal?_of_token (.json text v hv) rfl, ?_⟩
  exact Parser.bind_eq_ok.mpr ⟨(), _, rfl, rfl⟩

/-- A list or an object is written from bracket to bracket. -/
theorem bracketed_toText {text : String} {v : Json} (htext : Bracketed text.toList) (hv : parseText text = .ok v) :
    Bracketed v.toText.toList := by
  obtain ⟨rest, hvalue, -⟩ := value_of_parse (parseText_eq_ok.mp hv)
  obtain ⟨opener, closer, body, hbracket, hcs⟩ := htext
  rw [hcs] at hvalue
  rw [toText, String.toList_ofList]
  let Written (v : Json) : Prop := Bracketed (compact v)
  cases hbracket with
  | list =>
    have hwritten : ∀ items, Written (.array items) := fun items => ⟨_, _, compactItems items, .list, rfl⟩
    exact yields_map (q := Written) (yields_trivial _) (fun items _ => hwritten items) v rest hvalue
  | object =>
    have hwritten : ∀ fields, Written (.object fields) := fun fields => ⟨_, _, compactFields fields, .object, rfl⟩
    exact yields_map (q := Written) (yields_trivial _) (fun fields _ => hwritten fields) v rest hvalue

end Json

/-- A list or an object that is JSON is one lexeme, from its opening to its closing bracket,
    whatever its strings hold and whatever stands around it, and the operand that it is has
    the text in which the JSON is written. If its numbers are integers, this text settles: it
    is one lexeme again, and an operand of the same text. -/
theorem json_literal_settles {text : String} {v : Json} (htext : Json.Bracketed text.toList)
    (hv : Json.parseText text = .ok v) :
    Json.LiteralOf text v.toText ∧ (v.Integral → Json.LiteralOf v.toText v.toText) := by
  refine ⟨Json.literalOf_of_parse htext hv, fun hintegral => ?_⟩
  exact Json.literalOf_of_parse (Json.bracketed_toText htext hv) (Json.parse_compact hv hintegral)

/-- What an object of one list of a number, a text and a number holds. -/
def Json.knotted? : Json → Option (String × Int × String × Int)
  | .object [(name, .array [.whole m, .string s, .whole n])] => some (name, m, s, n)
  | _ => none

theorem Json.knotted?_eq_some {v : Json} {name s : String} {m n : Int} (h : v.knotted? = some (name, m, s, n)) :
    v = .object [(name, .array [.whole m, .string s, .whole n])] := by
  unfold knotted? at h
  split at h
  · cases h
    rfl
  · cases h

/-- Quotes and brackets in strings, and blanks that go. -/
theorem json_literal_settles_knotted :
    let text := "\x7b\"]\\\"\": [1, \"\x7b\\\\\" , -2]\x7d"
    let settled := "\x7b\"]\\\"\":[1,\"\x7b\\\\\",-2]\x7d"
    let v : Json := .object [("]\"", .array [.whole 1, .string "\x7b\\", .whole (-2)])]
    Json.Bracketed text.toList ∧ Json.parseText text = .ok v ∧ v.Integral ∧ v.toText = settled ∧
      Json.LiteralOf text settled ∧ Json.LiteralOf settled settled := by
  intro text settled v
  have htext : Json.Bracketed text.toList :=
    ⟨_, _, text.toList.tail.dropLast, .object, by decide⟩
  have hview : (Json.parseText text).toOption.bind Json.knotted? = some ("]\"", 1, "\x7b\\", -2) := by decide +kernel
  obtain ⟨w, hw, hknotted⟩ := Option.bind_eq_some_iff.mp hview
  have hv : Json.parseText text = .ok v :=
    (except_toOption_eq_some.mp hw).trans (congrArg Except.ok (Json.knotted?_eq_some hknotted))
  have hintegral : v.Integral := by
    refine .object ?_
    simp only [List.forall_mem_cons]
    refine ⟨.array ?_, List.forall_mem_nil _⟩
    simp only [List.forall_mem_cons]
    exact ⟨.whole (by decide) (by decide), .string _, .whole (by decide) (by decide), List.forall_mem_nil _⟩
  have hsettled : v.toText = settled := by decide +kernel
  obtain ⟨hliteral, hagain⟩ := json_literal_settles htext hv
  exact ⟨htext, hv, hintegral, hsettled, hsettled ▸ hliteral, hsettled ▸ hagain hintegral⟩

end EntityQuery
