/-
  EntityQuery.Proofs.NamedValues — a value that is given by name reaches the parameter of
  that name (`named_value_reaches`).

  (1) Names. What parameters of a text can be named are the texts of characters that may
  stand in a name, one at least (`paramName_iff`). None of these is a blank, an equals
  sign or a marker (`plain_of_isNamePart`).

  (2) Arguments. So the first equals sign of an argument is the one behind the name,
  whatever the value has, and the name is left when blanks and markers are taken off
  (`parseBinding_marked`).
-/

import EntityQuery.Command.Check
import EntityQuery.Proofs.Bindings
import EntityQuery.Proofs.Lexing.Places
import EntityQuery.Proofs.Trimming

namespace EntityQuery

/-! ## (1) Names -/

namespace Token

/-- Some text has a parameter of this name. -/
def ParamName (name : String) : Prop := ∃ text t, .ok t ∈ (Feed.ofText text).readings ∧ t.kind = .param name

theorem isNamePart_of_isDigit {c : Char} (h : c.isDigit = true) : Text.isNamePart c = true := by
  have hascii : c.toNat < 0x80 := by
    simp only [Char.isDigit, Bool.and_eq_true, decide_eq_true_eq, UInt32.le_iff_toNat_le] at h
    exact Nat.lt_of_le_of_lt h.2 (by decide)
  simp [Text.isNamePart, Text.isNumeric_ascii c hascii, h]

/-- What ends a name in an argument, or is taken off one, can stand in none. -/
theorem plain_of_isNamePart {c : Char} (h : Text.isNamePart c = true) :
    Text.isBlank c = false ∧ c ≠ '=' ∧ Command.isMarker c = false := by
  refine ⟨Bool.eq_false_iff.mpr fun hblank => ?_, ?_, Bool.eq_false_iff.mpr fun hmarker => ?_⟩
  · rw [(class_of_isBlank hblank).1] at h
    cases h
  · rintro rfl
    revert h
    decide
  · simp only [Command.isMarker, Bool.or_eq_true, beq_iff_eq] at hmarker
    rcases hmarker with rfl | rfl
    · revert h
      decide
    · revert h
      decide

/-- Only a marker makes a parameter, and only with a name behind it. -/
theorem name_of_scan {c : Char} {cs : List Char} {name : String} (h : (scan c cs).outcome = .ok (.param name)) :
    name ≠ "" ∧ ∀ d ∈ name.toList, Text.isNamePart d = true := by
  let Named (s : Scan) : Prop :=
    ∀ name, s.outcome = .ok (.param name) → name ≠ "" ∧ ∀ d ∈ name.toList, Text.isNamePart d = true
  have hparam : ∀ p : Char → Bool, (∀ d, p d = true → Text.isNamePart d = true) → Named (scanParam c p cs) := by
    intro p hp name h
    simp only [scanParam] at h
    split at h
    · cases h
    · next hne =>
      obtain rfl := TokenKind.param.inj (Except.ok.inj h)
      refine ⟨fun hnil => hne (by rw [String.ofList_eq_empty_iff.mp hnil]; rfl), fun d hd => ?_⟩
      rw [String.toList_ofList] at hd
      exact hp d (List.mem_takeWhile_imp hd)
  refine scan_cases (P := Named) c cs ?_ ?_ (fun _ => hparam _ fun _ => id) (fun _ => hparam _ fun _ => isNamePart_of_isDigit)
    (fun _ => ?_) (fun _ => ?_) (fun short long => ?_) (fun _ => ?_) ?_ ?_ name h
  · unfold scanString
    intro name h
    split at h <;> cases h
  · unfold scanJson
    intro name h
    simp only at h
    split at h <;> cases h
  · intro name h
    rcases scanNumber_cases (c :: cs) with ⟨i, hk⟩ | ⟨x, hk⟩ | hk <;> rw [hk] at h <;> cases h
  · intro name h
    cases h
  · unfold scanMark
    intro name h
    split at h <;> cases h
  · intro name h
    simp only [scanName, nameKind] at h
    cases hl : Keyword.lookup? (String.ofList ((c :: cs).takeWhile Text.isNamePart)) <;> rw [hl] at h <;> cases h
  · intro name h
    cases h
  · intro name h
    cases h

theorem scans_of_mem {text : String} {t : Token} (h : .ok t ∈ (Feed.ofText text).readings)
    (hend : t.kind ≠ .endOfInput) : ∃ w r, Scans t.kind w r := by
  obtain ⟨earlier, later, hsplit⟩ := List.append_of_mem h
  obtain ⟨before, cs, -, hread⟩ := exists_rest [] hsplit
  obtain ⟨-, ht, -⟩ | ⟨c, rest, hdrop, ht, -⟩ := readings_cases hread
  · rw [Except.ok.inj ht] at hend
    exact absurd rfl hend
  · have hc : Text.isBlank c = false := Text.isBlank_head_trimStart c cs rest hdrop
    unfold Scan.reading at ht
    cases ho : (scan c rest).outcome with
    | error fault =>
      rw [ho] at ht
      cases ht
    | ok kind =>
      rw [ho] at ht
      rw [Except.ok.inj ht]
      exact ⟨_, _, .of_scan hc ho⟩

theorem paramName_iff {name : String} :
    ParamName name ↔ name ≠ "" ∧ ∀ c ∈ name.toList, Text.isNamePart c = true := by
  constructor
  · rintro ⟨text, t, ht, hkind⟩
    have hend : t.kind ≠ .endOfInput := by
      intro h
      cases hkind.symm.trans h
    obtain ⟨w, r, c, cs, -, -, hscan⟩ := scans_of_mem ht hend
    exact name_of_scan (by rw [hscan, hkind])
  · rintro ⟨hne, hall⟩
    obtain ⟨htake, hdrop⟩ :=
      takeWhile_append_iff (p := Text.isNamePart) (r := []) |>.mpr ⟨hall, rfl⟩
    have hempty : name.toList.isEmpty = false := by simpa using hne
    have hscan : scan '@' (name.toList ++ []) = ⟨.ok (.param name), '@' :: name.toList, []⟩ := by
      show scanParam '@' Text.isNamePart (name.toList ++ []) = _
      rw [scanParam, htake, hdrop, hempty, String.ofList_toList]
      rfl
    let p : Piece := ⟨[], .param name, '@' :: name.toList⟩
    have hgap : Blank p.gap := List.forall_mem_nil _
    have hread := read_piece (p := p) (r := []) .start hgap ⟨'@', name.toList, rfl, by decide, hscan⟩
    refine ⟨String.ofList ('@' :: name.toList), p.token .start, ?_, rfl⟩
    rw [Feed.ofText, String.toList_ofList, ← List.append_nil ('@' :: name.toList)]
    show _ ∈ (Feed.read .start (p.gap ++ (p.lexeme ++ []))).readings
    rw [hread]
    exact List.mem_cons_self

end Token

/-! ## (2) Arguments -/

namespace Command

open Token (ParamName paramName_iff plain_of_isNamePart)

section Marked

variable {name : String} (hname : ParamName name) {marker : String} (hmarker : ∀ c ∈ marker.toList, isMarker c = true)

include hname hmarker

theorem bindingName?_marked : bindingName? (marker.toList ++ name.toList) = some name := by
  obtain ⟨hne, hall⟩ := paramName_iff.mp hname
  have hblank : ∀ c ∈ marker.toList ++ name.toList, Text.isBlank c = false := by
    intro c hc
    rcases List.mem_append.mp hc with hc | hc
    · have hm := hmarker c hc
      simp only [isMarker, Bool.or_eq_true, beq_iff_eq] at hm
      rcases hm with rfl | rfl <;> decide
    · exact (plain_of_isNamePart (hall c hc)).1
  have hdrop : (marker.toList ++ name.toList).dropWhile isMarker = name.toList := by
    rw [List.dropWhile_append_of_pos hmarker]
    cases hcs : name.toList with
    | nil => rfl
    | cons c cs =>
      have hc : c ∈ name.toList := hcs ▸ List.mem_cons_self
      simp [(plain_of_isNamePart (hall c hc)).2.2]
  rw [bindingName?, Text.trim_of_not_blank hblank]
  simp [hdrop, hne]

/-- The equals sign behind the name is the first one. -/
theorem parseBinding_marked (raw : String) :
    parseBinding (marker ++ name ++ "=" ++ raw) = .ok (name, bindingValue raw) := by
  have hbefore : ∀ c ∈ marker.toList ++ name.toList, (c != '=') = true := by
    intro c hc
    rw [bne_iff_ne]
    rcases List.mem_append.mp hc with hc | hc
    · rintro rfl
      have hm := hmarker '=' hc
      revert hm
      decide
    · exact (plain_of_isNamePart ((paramName_iff.mp hname).2 c hc)).2.1
  have htext : (marker ++ name ++ "=" ++ raw).toList = (marker.toList ++ name.toList) ++ '=' :: raw.toList := by
    simp
  obtain ⟨htake, hdrop⟩ := Token.takeWhile_append_iff (p := (· != '=')) (r := '=' :: raw.toList) |>.mpr ⟨hbefore, rfl⟩
  unfold parseBinding
  rw [htext]
  simp only [htake, hdrop, bindingName?_marked hname hmarker, String.ofList_toList]

end Marked

end Command

/-- Whatever name a parameter can have, and whether an argument has it without a marker or
    with one, the argument gives all that is behind its first equals sign to this name: as
    JSON if it is that, and else as it stands. Bound to a statement that has the
    parameter, it becomes the value of this one, and nothing else changes. -/
theorem named_value_reaches {name : String} (hname : Token.ParamName name) {marker : String}
    (hmarker : marker ∈ ["", "@", "?"]) (raw : String) :
    ∃ value, Command.parseBinding (marker ++ name ++ "=" ++ raw) = .ok (name, value) ∧
      (∀ j, Json.parseText raw = .ok j → value = .ofJson j) ∧
      (∀ reason, Json.parseText raw = .error reason → value = .string raw) ∧
      ∀ s : Statement, name ∈ s.parameters → ∃ b : Bindings, s.bind name value = .ok { s with bindings := b } ∧
        b.declared = s.bindings.declared ∧ b.get? name = some value ∧
        ∀ other, other ≠ name → b.get? other = s.bindings.get? other := by
  have hmarkers : ∀ c ∈ marker.toList, Command.isMarker c = true := by
    simp only [List.mem_cons, List.not_mem_nil, or_false] at hmarker
    rcases hmarker with rfl | rfl | rfl <;> exact List.all_eq_true.mp (by decide)
  refine ⟨_, Command.parseBinding_marked hname hmarkers raw, ?_, ?_, ?_⟩
  · intro j hj
    rw [Command.bindingValue, hj]
  · intro reason hreason
    rw [Command.bindingValue, hreason]
  · intro s hs
    have hdeclared : s.bindings.isDeclared name = true := Bindings.isDeclared_iff.mpr hs
    refine ⟨s.bindings.tryBind name (Command.bindingValue raw), ?_, Bindings.tryBind_declared .., ?_, ?_⟩
    · rw [Statement.bind, Bindings.bind_eq_ok.mpr ⟨hs, rfl⟩, Bindings.tryBind_of_declared hs]
      rfl
    · rw [Bindings.tryBind_get?, if_pos ⟨hdeclared, rfl⟩]
    · intro other hother
      rw [Bindings.tryBind_get?, if_neg fun h => hother h.2]

/-- A value with an equals sign, which is no JSON. -/
theorem named_value_reaches_equation :
    let s := Statement.ofQuery (.get [.param "größe"]) .identity Converter.standard
    Token.ParamName "größe" ∧ "@" ∈ ["", "@", "?"] ∧
      ∃ value, Command.parseBinding "@größe=a=b" = .ok ("größe", value) ∧ value = .string "a=b" ∧
        ∃ b : Bindings, s.bind "größe" value = .ok { s with bindings := b } ∧ b.get? "größe" = some value := by
  intro s
  have hname : Token.ParamName "größe" := Token.paramName_iff.mpr ⟨by decide, List.all_eq_true.mp (by decide)⟩
  have hmarker : "@" ∈ ["", "@", "?"] := by decide
  obtain ⟨value, hparse, -, htext, hbind⟩ := named_value_reaches hname hmarker "a=b"
  obtain ⟨b, hb, -, hget, -⟩ := hbind s (by decide)
  exact ⟨hname, hmarker, value, hparse, htext "expected value at line 1 column 1" (by rfl), b, hb, hget⟩

end EntityQuery
