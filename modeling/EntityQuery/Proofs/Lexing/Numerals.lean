/-
  EntityQuery.Proofs.Lexing.Numerals — a number is read as far as it goes (`numbers_read`).

  (1) Form. A number is a minus or none, digits, and behind a point further digits, or no
  point at all (`NumberText`). What is taken where one starts has this form, and whatever
  else of this form the text starts with is no longer (`length_le_scanNumber`).

  (2) Kind. Without a point it is the whole number that the digits spell, if 64 bits hold
  it (`numberKind_whole`); with a point it is a float in any case (`numberKind_fraction`).

  (3) Readings. A reading is of a number exactly where one starts (`isNumber_scan`), and
  what is read behind it is read off what the number leaves (`readings_cases`).
-/

import EntityQuery.Proofs.Lexing.Places
import EntityQuery.Proofs.Number.Whole

namespace EntityQuery.Token

open Numeral (IsDigits)

/-! ## (1) Form -/

def minus (negative : Bool) : List Char := if negative then ['-'] else []

/-- Digits, and behind a point further digits, or no point at all. -/
inductive UnsignedText : List Char → Prop
  | whole {ds : List Char} : IsDigits ds → UnsignedText ds
  | fraction {ds fs : List Char} : IsDigits ds → IsDigits fs → UnsignedText (ds ++ '.' :: fs)

def NumberText (cs : List Char) : Prop := ∃ negative body, cs = minus negative ++ body ∧ UnsignedText body

/-- Whether a text starts with a digit, or with a minus right before one. -/
def startsNumber : List Char → Bool
  | c :: cs => c.isDigit || (c == '-' && startsWithDigit cs)
  | [] => false

theorem IsDigits.opens {ds : List Char} (h : IsDigits ds) (r : List Char) : opens Char.isDigit (ds ++ r) = true := by
  obtain ⟨d, ds, rfl⟩ := List.exists_cons_of_ne_nil h.1
  exact h.2 d List.mem_cons_self

theorem UnsignedText.opens {cs : List Char} (h : UnsignedText cs) (r : List Char) :
    opens Char.isDigit (cs ++ r) = true := by
  cases h with
  | whole hds => exact IsDigits.opens hds r
  | fraction hds _ =>
    rw [List.append_assoc]
    exact IsDigits.opens hds _

theorem startsNumber_iff {cs : List Char} :
    startsNumber cs = true ↔ ∃ negative body, cs = minus negative ++ body ∧ opens Char.isDigit body = true := by
  constructor
  · intro h
    cases cs with
    | nil => cases h
    | cons c cs =>
      by_cases hc : c.isDigit = true
      · exact ⟨false, c :: cs, rfl, hc⟩
      · simp only [startsNumber, hc, Bool.false_or, Bool.and_eq_true, beq_iff_eq, startsWithDigit_eq] at h
        obtain ⟨rfl, hcs⟩ := h
        exact ⟨true, cs, rfl, hcs⟩
  · rintro ⟨negative, body, rfl, hbody⟩
    cases negative with
    | true => simp [minus, startsNumber, startsWithDigit_eq, hbody]
    | false =>
      cases body with
      | nil => cases hbody
      | cons c cs =>
        have hc : c.isDigit = true := hbody
        simp [minus, startsNumber, hc]

theorem NumberText.startsNumber {cs : List Char} (h : NumberText cs) (r : List Char) :
    startsNumber (cs ++ r) = true := by
  obtain ⟨negative, body, rfl, hbody⟩ := h
  exact startsNumber_iff.mpr ⟨negative, body ++ r, List.append_assoc .., hbody.opens r⟩

theorem splitMinus_minus {body : List Char} (h : opens Char.isDigit body = true) (negative : Bool) :
    splitMinus (minus negative ++ body) = (minus negative, body) := by
  cases negative with
  | true => rfl
  | false =>
    cases body with
    | nil => cases h
    | cons c cs =>
      refine splitMinus_of_ne ?_ cs
      rintro rfl
      cases h

theorem scanNumber_minus {body : List Char} (h : opens Char.isDigit body = true) (negative : Bool) :
    scanNumber (minus negative ++ body) =
      ⟨numberKind (minus negative ++ (numeralPart body).1), minus negative ++ (numeralPart body).1,
        (numeralPart body).2⟩ := by
  rw [scanNumber, splitMinus_minus h]

/-- Behind a sign what is taken has a digit on either side of its point. -/
theorem numeralPart_unsigned {body : List Char} (h : opens Char.isDigit body = true) :
    UnsignedText (numeralPart body).1 := by
  have hsplit := numeralPart_append body
  generalize hp : (numeralPart body).1 = taken at hsplit
  generalize hr : (numeralPart body).2 = rest at hsplit
  have hpart : numeralPart (taken ++ rest) = (taken, rest) := by rw [hsplit, ← hp, ← hr]
  obtain ⟨hrest, ⟨hdigits, -⟩ | ⟨ds, fs, rfl, hds, hfs, hne⟩⟩ := numeralPart_append_iff.mp hpart
  · refine .whole ⟨?_, hdigits⟩
    rintro rfl
    rw [List.nil_append] at hsplit
    rw [hsplit, h] at hrest
    cases hrest
  · refine .fraction ⟨?_, hds⟩ ⟨hne, hfs⟩
    rintro rfl
    rw [← hsplit] at h
    cases h

/-- What has the form is taken, if nothing longer is. -/
theorem length_le_numeralPart {cs : List Char} (h : UnsignedText cs) (r : List Char) :
    cs.length ≤ (numeralPart (cs ++ r)).1.length := by
  cases h with
  | whole hds =>
    have htake : (cs ++ r).takeWhile Char.isDigit = cs ++ r.takeWhile Char.isDigit :=
      List.takeWhile_append_of_pos hds.2
    unfold numeralPart
    simp only [Numeral.splitDigits, htake]
    split
    · split <;> simp
    · simp
  | @fraction ds fs hds hfs =>
    obtain ⟨f, fs, rfl⟩ := List.exists_cons_of_ne_nil hfs.1
    have hf : f.isDigit = true := hfs.2 f List.mem_cons_self
    obtain ⟨htake, hdrop⟩ := takeWhile_append_iff (p := Char.isDigit) (r := '.' :: (f :: fs ++ r)) |>.mpr ⟨hds.2, rfl⟩
    have hfraction : (f :: fs ++ r).takeWhile Char.isDigit = f :: fs ++ r.takeWhile Char.isDigit :=
      List.takeWhile_append_of_pos hfs.2
    rw [List.append_assoc]
    simp only [List.cons_append] at htake hdrop hfraction ⊢
    simp only [numeralPart, Numeral.splitDigits, htake, hdrop, hf, if_true, hfraction]
    simp

theorem length_le_scanNumber {other rest : List Char} (h : NumberText other) (hfront : other <+: rest) :
    other.length ≤ (scanNumber rest).taken.length := by
  obtain ⟨negative, body, rfl, hbody⟩ := h
  obtain ⟨r, rfl⟩ := hfront
  rw [List.append_assoc, scanNumber_minus (hbody.opens r)]
  have hle := length_le_numeralPart hbody r
  simp only [List.length_append]
  omega

/-! ## (2) Kind -/

theorem not_point_of_digits {ds : List Char} (h : IsDigits ds) : '.' ∉ ds := by
  intro hin
  have hdigit := h.2 '.' hin
  revert hdigit
  decide

theorem point_mem_minus (negative : Bool) (cs : List Char) : '.' ∈ minus negative ++ cs ↔ '.' ∈ cs := by
  cases negative <;> simp [minus]

theorem whole_minus {ds : List Char} (h : IsDigits ds) (negative : Bool) : ∃ n, Numeral.Whole (minus negative ++ ds) n := by
  cases negative with
  | true => exact ⟨_, .minus h⟩
  | false => exact ⟨_, .bare h⟩

/-- Without a point 64 bits decide. -/
theorem numberKind_whole {cs : List Char} {n : Int} (h : Numeral.Whole cs n) (hpoint : '.' ∉ cs) :
    numberKind cs = if Numeral.inInt64 n then .ok (.integer (Int64.ofInt n))
      else .error (.invalidNumber (String.ofList cs)) := by
  have hcontains : cs.contains '.' = false := by simpa using hpoint
  have hread : Numeral.readInt64? cs = if Numeral.inInt64 n then some (Int64.ofInt n) else none := by
    rw [Numeral.readInt64?, Numeral.readInt?_eq_some_iff.mpr h]
    rfl
  simp only [numberKind, hcontains, Bool.false_eq_true, if_false, hread]
  split <;> rfl

/-- Digits spell none of the words that are numbers. -/
theorem readBinary64?_of_digit {negative : Bool} {cs body : List Char}
    (hsplit : Numeral.splitSign cs = (negative, body)) (h : opens Char.isDigit body = true) :
    Numeral.readBinary64? cs = Numeral.readUnsigned? negative body := by
  cases body with
  | nil => cases h
  | cons c body =>
    have hword : ∀ d ds, d.isDigit = false → d.toLower = d → String.ofList ((c :: body).map Char.toLower) ≠ String.ofList (d :: ds) := by
      intro d ds hd hlower heq
      have hlist : (c :: body).map Char.toLower = d :: ds := String.ofList_injective heq
      have hc : c.toLower = d.toLower := ((List.cons.inj hlist).1).trans hlower.symm
      have hdigit : c.isDigit = d.isDigit := (class_of_toLower_eq hc).2.2.1
      rw [hd, show c.isDigit = true from h] at hdigit
      cases hdigit
    unfold Numeral.readBinary64?
    rw [hsplit]
    simp only
    split
    · next heq => exact absurd heq (hword 'i' ['n', 'f'] rfl rfl)
    · next heq => exact absurd heq (hword 'i' ['n', 'f', 'i', 'n', 'i', 't', 'y'] rfl rfl)
    · next heq => exact absurd heq (hword 'n' ['a', 'n'] rfl rfl)
    · rfl

theorem splitSign_minus {body : List Char} (h : opens Char.isDigit body = true) (negative : Bool) :
    Numeral.splitSign (minus negative ++ body) = (negative, body) := by
  cases negative with
  | true => rfl
  | false =>
    refine Numeral.splitSign_of_isDigit fun c hc => ?_
    cases body with
    | nil => cases h
    | cons d ds =>
      obtain rfl : d = c := Option.some.inj hc
      exact h

/-- With a point all digits count, however many there are. -/
theorem numberKind_fraction {ds fs : List Char} (hds : IsDigits ds) (hfs : IsDigits fs) (negative : Bool) :
    numberKind (minus negative ++ (ds ++ '.' :: fs)) = .ok (.float (Numeral.scaled negative (ds ++ fs) (-fs.length))) := by
  have hcontains : (minus negative ++ (ds ++ '.' :: fs)).contains '.' = true := by simp
  have hopens : opens Char.isDigit (ds ++ '.' :: fs) = true := IsDigits.opens hds _
  obtain ⟨htake, hdrop⟩ := takeWhile_append_iff (p := Char.isDigit) (r := '.' :: fs) |>.mpr ⟨hds.2, rfl⟩
  obtain ⟨htake', hdrop'⟩ := takeWhile_append_iff (p := Char.isDigit) (r := []) |>.mpr ⟨hfs.2, rfl⟩
  rw [List.append_nil] at htake' hdrop'
  have hempty : ds.isEmpty = false := by simpa using hds.1
  have hread : Numeral.readBinary64? (minus negative ++ (ds ++ '.' :: fs)) =
      some (Numeral.scaled negative (ds ++ fs) (-fs.length)) := by
    rw [readBinary64?_of_digit (splitSign_minus hopens negative) hopens]
    simp only [Numeral.readUnsigned?, Numeral.splitDigits, htake, hdrop, htake', hdrop', hempty, Bool.false_and,
      Bool.false_eq_true, if_false, Numeral.readPower?, Option.map_some]
    simp
  simp only [numberKind, hcontains, if_true, hread]
  rfl

/-! ## (3) Readings -/

/-- A number, or the fault of one. -/
def Reading.isNumber : Reading → Bool
  | .ok t => t.kind.category == .number
  | .error (.malformed (.invalidNumber _) _) => true
  | .error _ => false

/-- No other lexeme starts as a number does. -/
theorem scan_of_startsNumber {c : Char} {cs : List Char} (h : startsNumber (c :: cs) = true) :
    scan c cs = scanNumber (c :: cs) := by
  have hne : ∀ d ∈ ['"', '\'', '\x7b', '[', '@', '?'], (c == d) = false := by
    intro d hd
    refine beq_eq_false_iff_ne.mpr ?_
    rintro rfl
    have hothers : ∀ d ∈ ['"', '\'', '\x7b', '[', '@', '?'], d.isDigit = false ∧ d ≠ '-' := by simp
    obtain ⟨hdigit, hminus⟩ := hothers c hd
    simp [startsNumber, hdigit, hminus] at h
  simp only [List.mem_cons, List.not_mem_nil, or_false, forall_eq_or_imp, forall_eq] at hne
  have hstart : (c.isDigit || (c == '-' && startsWithDigit cs)) = true := h
  simp only [scan, hne, hstart, Bool.or_self, Bool.false_eq_true, if_false, if_true]

theorem isNumber_scanNumber {cs : List Char} (position : Position) : ((scanNumber cs).reading position).isNumber = true := by
  unfold Scan.reading
  rcases scanNumber_cases cs with ⟨i, h⟩ | ⟨x, h⟩ | h <;> rw [h] <;> rfl

/-- What is scanned is a number exactly where one starts. -/
theorem isNumber_scan (c : Char) (cs : List Char) (position : Position) :
    ((scan c cs).reading position).isNumber = startsNumber (c :: cs) := by
  by_cases hstart : startsNumber (c :: cs) = true
  · rw [hstart, scan_of_startsNumber hstart]
    exact isNumber_scanNumber position
  · rw [Bool.eq_false_iff.mpr hstart]
    have hparam : ∀ p, ((scanParam c p cs).reading position).isNumber = false := by
      intro p
      simp only [scanParam, Scan.reading]
      cases (cs.takeWhile p).isEmpty <;> rfl
    refine scan_cases (P := fun s => (s.reading position).isNumber = false) c cs ?_ ?_ (fun _ => hparam _)
      (fun _ => hparam _) (absurd · hstart) ?_ ?_ ?_ rfl rfl
    · unfold scanString
      split <;> rfl
    · unfold scanJson
      simp only
      split <;> rfl
    · intro m
      cases m <;> rfl
    · intro short long
      unfold scanMark
      split
      · cases long <;> rfl
      · cases short <;> rfl
    · intro _
      simp only [scanName, Scan.reading, nameKind]
      cases Keyword.lookup? (String.ofList ((c :: cs).takeWhile Text.isNamePart)) <;> rfl

/-- Where a number starts, its form says what is read: without a point 64 bits decide. -/
theorem reading_scanNumber {cs : List Char} (h : startsNumber cs = true) (position : Position) :
    let lexeme := (scanNumber cs).taken
    let r := (scanNumber cs).reading position
    NumberText lexeme ∧
      ('.' ∉ lexeme → ∃ n, Numeral.Whole lexeme n ∧
        (-2 ^ 63 ≤ n ∧ n ≤ 2 ^ 63 - 1 → ∃ i : Int64, i.toInt = n ∧ r = .ok ⟨.integer i, String.ofList lexeme, position⟩) ∧
        (¬ (-2 ^ 63 ≤ n ∧ n ≤ 2 ^ 63 - 1) →
          r = .error (.malformed (.invalidNumber (String.ofList lexeme)) position))) ∧
      ('.' ∈ lexeme → ∃ negative ds fs, lexeme = minus negative ++ (ds ++ '.' :: fs) ∧ IsDigits ds ∧ IsDigits fs ∧
        r = .ok ⟨.float (Numeral.scaled negative (ds ++ fs) (-fs.length)), String.ofList lexeme, position⟩) := by
  obtain ⟨negative, body, rfl, hbody⟩ := startsNumber_iff.mp h
  simp only [scanNumber_minus hbody, Scan.reading]
  have hform := numeralPart_unsigned hbody
  generalize (numeralPart body).1 = unsigned at hform
  refine ⟨⟨negative, unsigned, rfl, hform⟩, fun hpoint => ?_, fun hpoint => ?_⟩
  · cases hform with
    | fraction => simp at hpoint
    | whole hds =>
      obtain ⟨n, hn⟩ := whole_minus hds negative
      refine ⟨n, hn, fun hin => ?_, fun hout => ?_⟩
      · have hfits : Numeral.inInt64 n = true := by
          simp only [Numeral.inInt64, Bool.and_eq_true, decide_eq_true_eq]
          omega
        refine ⟨Int64.ofInt n, Int64.toInt_ofInt_of_le hin.1 (by omega), ?_⟩
        rw [numberKind_whole hn hpoint, if_pos hfits]
      · have hfits : Numeral.inInt64 n ≠ true := by
          simp only [Numeral.inInt64, ne_eq, Bool.and_eq_true, decide_eq_true_eq]
          omega
        rw [numberKind_whole hn hpoint, if_neg hfits]
  · cases hform with
    | whole hds => exact absurd ((point_mem_minus negative _).mp hpoint) (not_point_of_digits hds)
    | @fraction ds fs hds hfs =>
      refine ⟨negative, ds, fs, rfl, hds, hfs, ?_⟩
      rw [numberKind_fraction hds hfs]

end Token

open Token (Feed Reading NumberText startsNumber minus)
open Numeral (IsDigits)

/-- Whatever is read off a text is a number, or the fault of one, exactly where a digit
    stands or a minus right before one. Its lexeme is then the longest number that the text
    goes on with, and what is read next is read off what this leaves. A number without a
    point is the integer that its digits spell, if that is one of 64 bits, and else a fault
    at its first character; one with a point is a float, however many digits it has. -/
theorem numbers_read {text : String} {earlier later : List Reading} {r : Reading}
    (h : (Feed.ofText text).readings = earlier ++ r :: later) :
    ∃ before rest, text.toList = before ++ rest ∧
      let position := Position.start.after before
      r.place? = some position ∧ r.isNumber = startsNumber rest ∧
      (startsNumber rest = true → ∃ lexeme behind, rest = lexeme ++ behind ∧ NumberText lexeme ∧
        (∀ other, NumberText other → other <+: rest → other.length ≤ lexeme.length) ∧
        later = (Feed.read (position.after lexeme) behind).readings ∧
        ('.' ∉ lexeme → ∃ n, Numeral.Whole lexeme n ∧
          (-2 ^ 63 ≤ n ∧ n ≤ 2 ^ 63 - 1 → ∃ i : Int64, i.toInt = n ∧
            r = .ok ⟨.integer i, String.ofList lexeme, position⟩) ∧
          (¬ (-2 ^ 63 ≤ n ∧ n ≤ 2 ^ 63 - 1) →
            r = .error (.malformed (.invalidNumber (String.ofList lexeme)) position))) ∧
        ('.' ∈ lexeme → ∃ negative ds fs, lexeme = minus negative ++ (ds ++ '.' :: fs) ∧ IsDigits ds ∧ IsDigits fs ∧
          r = .ok ⟨.float (Numeral.scaled negative (ds ++ fs) (-fs.length)), String.ofList lexeme, position⟩)) := by
  obtain ⟨before, cs, htext, hread⟩ := Token.exists_rest [] h
  rw [List.nil_append] at htext
  refine ⟨before ++ cs.takeWhile Text.isBlank, cs.dropWhile Text.isBlank, ?_, ?_⟩
  · rw [htext, List.append_assoc, List.takeWhile_append_dropWhile]
  intro position
  have hposition : (Position.start.after before).after (cs.takeWhile Text.isBlank) = position :=
    (Position.after_append ..).symm
  obtain ⟨hdrop, hr, -⟩ | ⟨c, rest, hdrop, hr, hlater⟩ := Token.readings_cases hread
  · rw [hdrop, hr, hposition]
    exact ⟨rfl, rfl, nofun⟩
  · rw [hdrop, hr, hposition]
    rw [hposition] at hlater
    refine ⟨Token.Scan.reading_place? _ _, Token.isNumber_scan c rest position, fun hstart => ?_⟩
    obtain ⟨hform, hwhole, hfraction⟩ := Token.reading_scanNumber hstart position
    have hempty : (Token.scanNumber (c :: rest)).taken.isEmpty = false := by
      refine Bool.eq_false_iff.mpr fun hempty => ?_
      rw [List.isEmpty_iff.mp hempty] at hform
      exact absurd (hform.startsNumber []) nofun
    rw [Token.scan_of_startsNumber hstart] at hlater ⊢
    rw [hempty, if_neg Bool.false_ne_true] at hlater
    exact ⟨_, _, (Token.scanNumber_splits _).symm, hform, fun _ => Token.length_le_scanNumber, hlater, hwhole, hfraction⟩

/-- A point that no digit follows is left. -/
theorem numbers_read_trailing_point :
    let text := "a<-012.b"
    let earlier : List Reading := [.ok ⟨.identifier "a", "a", ⟨0, 1, 1⟩⟩, .ok ⟨.mark .lt, "<", ⟨1, 1, 2⟩⟩]
    let number : Reading := .ok ⟨.integer (-12), "-012", ⟨2, 1, 3⟩⟩
    let later : List Reading :=
      [.ok ⟨.mark .dot, ".", ⟨6, 1, 7⟩⟩, .ok ⟨.identifier "b", "b", ⟨7, 1, 8⟩⟩, .ok ⟨.endOfInput, "", ⟨8, 1, 9⟩⟩]
    (Feed.ofText text).readings = earlier ++ number :: later ∧
      ∃ before rest, text.toList = before ++ rest ∧ number.isNumber = startsNumber rest ∧
        ∃ lexeme behind, rest = lexeme ++ behind ∧ NumberText lexeme ∧
          (∀ other, NumberText other → other <+: rest → other.length ≤ lexeme.length) ∧
          later = (Feed.read ((Position.start.after before).after lexeme) behind).readings := by
  intro text earlier number later
  have hread : (Feed.ofText text).readings = earlier ++ number :: later := by decide +kernel
  obtain ⟨before, rest, htext, -, hnumber, hlongest⟩ := numbers_read hread
  obtain ⟨lexeme, behind, hrest, hform, hmax, hlater, -⟩ := hlongest (hnumber.symm.trans rfl)
  exact ⟨hread, before, rest, htext, hnumber, lexeme, behind, hrest, hform, hmax, hlater⟩

/-- The least integer of 64 bits, which is one only with its sign. -/
example : (Feed.ofText "-9223372036854775808 9223372036854775808").upcoming =
    [.ok ⟨.integer Int64.minValue, "-9223372036854775808", ⟨0, 1, 1⟩⟩,
      .error (.malformed (.invalidNumber "9223372036854775808") ⟨21, 1, 22⟩)] := by decide +kernel

end EntityQuery
