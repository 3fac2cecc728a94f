/-
  EntityQuery.Proofs.Json.Writing — a JSON value that is written in one line is read back
  (`parse_compact`).

  (1) Strings. A character is read back from its escape, and from itself where it has none
  (`stringTail_escapedChar`).

  (2) Numbers. The digits of a number that 64 bits hold are gathered as they stand, so an
  integer is read back. A zero below zero is written with a point and read as a float
  again. Of other floats this is not said: they are read by rounding twice.

  (3) Values. What follows a value in a list or an object is a comma or a bracket, and
  neither can go on a number (`Ends`). Fields of different names are put one behind the
  other, so an object is read back in its order.
-/

import EntityQuery.Json.Writer
import EntityQuery.Proofs.Json.Reading
import EntityQuery.Proofs.Number.DecimalText

namespace EntityQuery.Json

/-! ## (1) Strings -/

section Strings

variable {c : Char} (read r : List Char)

theorem stringTail_escape {cs : List Char} (h : escape cs = .ok (c, r)) :
    stringTail read ('\\' :: cs) = stringTail (c :: read) r := by
  rw [stringTail]
  simp only [show ('\\' == '"') = false by decide, Bool.false_eq_true, if_false, beq_self_eq_true, if_true]
  split
  · next e rest h' =>
    obtain ⟨rfl, rfl⟩ := Prod.mk.inj (Except.ok.inj (h.symm.trans h'))
    rfl
  · next f h' =>
    rw [h] at h'
    cases h'

theorem stringTail_plain (hquote : c ≠ '"') (hbackslash : c ≠ '\\') (hcontrol : ¬ c.toNat < 0x20) :
    stringTail read (c :: r) = stringTail (c :: read) r := by
  rw [stringTail]
  simp [hquote, hbackslash, hcontrol]

/-- A control character is two hexadecimal digits. -/
theorem escape_control (h : c.toNat < 0x20) :
    escape ('u' :: '0' :: '0' :: Nat.digitChar (c.toNat / 16) :: Nat.digitChar (c.toNat % 16) :: r) = .ok (c, r) := by
  have hquad : ∀ n < 0x20, hexQuad? '0' '0' (Nat.digitChar (n / 16)) (Nat.digitChar (n % 16)) = some n := by decide
  have hhex : hexEscape ('0' :: '0' :: Nat.digitChar (c.toNat / 16) :: Nat.digitChar (c.toNat % 16) :: r) =
      .ok (c.toNat, r) := by
    rw [hexEscape, hquad c.toNat h]
  have hlow : ¬ (0xDC00 ≤ c.toNat ∧ c.toNat ≤ 0xDFFF) := by omega
  have hhigh : ¬ (0xD800 ≤ c.toNat ∧ c.toNat ≤ 0xDBFF) := by omega
  show unicodeEscape _ = _
  rw [unicodeEscape, hhex]
  show (if _ then _ else if _ then _ else _) = _
  rw [if_neg hlow, if_neg hhigh, Char.ofNat_toNat]

theorem stringTail_escapedChar (c : Char) : stringTail read (escapedChar c ++ r) = stringTail (c :: read) r := by
  have hshort : ∀ e c, shortEscape? e = some c → (e == 'u') = false →
      stringTail read ('\\' :: e :: r) = stringTail (c :: read) r := by
    intro e c hshort hu
    refine stringTail_escape read r ?_
    simp only [escape, hu, hshort, Bool.false_eq_true, if_false]
  unfold escapedChar
  split
  · next h => rw [beq_iff_eq.mp h]; exact hshort '"' _ rfl rfl
  next hquote =>
  split
  · next h => rw [beq_iff_eq.mp h]; exact hshort '\\' _ rfl rfl
  next hbackslash =>
  split
  · next h => rw [beq_iff_eq.mp h]; exact hshort 'b' _ rfl rfl
  split
  · next h => rw [beq_iff_eq.mp h]; exact hshort 't' _ rfl rfl
  split
  · next h => rw [beq_iff_eq.mp h]; exact hshort 'n' _ rfl rfl
  split
  · next h => rw [beq_iff_eq.mp h]; exact hshort 'f' _ rfl rfl
  split
  · next h => rw [beq_iff_eq.mp h]; exact hshort 'r' _ rfl rfl
  split
  · next h => exact stringTail_escape read r (escape_control r h)
  · next h => exact stringTail_plain read r (mt beq_iff_eq.mpr hquote) (mt beq_iff_eq.mpr hbackslash) h

end Strings

theorem stringTail_escaped (cs read r : List Char) :
    stringTail read (cs.flatMap escapedChar ++ '"' :: r) = .ok (String.ofList (read.reverse ++ cs), r) := by
  induction cs generalizing read with
  | nil =>
    rw [List.flatMap_nil, List.nil_append, List.append_nil, stringTail]
    rfl
  | cons c cs ih =>
    rw [List.flatMap_cons, List.append_assoc, stringTail_escapedChar, ih]
    simp

theorem stringTail_text (s : String) (r : List Char) :
    stringTail [] (s.toList.flatMap escapedChar ++ '"' :: r) = .ok (s, r) := by
  rw [stringTail_escaped, List.reverse_nil, List.nil_append, String.ofList_toList]

/-! ## (2) Numbers -/

/-- Nothing follows, or what may follow a value in a list or an object. -/
def Ends (r : List Char) : Prop := ∀ c ∈ r.head?, c = ',' ∨ c = ']' ∨ c = '\x7d'

theorem Ends.nil : Ends [] := nofun

theorem Ends.cons {c : Char} (h : c = ',' ∨ c = ']' ∨ c = '\x7d') (r : List Char) : Ends (c :: r) := by
  intro d hd
  rwa [← Option.some.inj hd]

theorem Ends.startsWithDigit {r : List Char} (h : Ends r) : startsWithDigit r = false := by
  cases r with
  | nil => rfl
  | cons c r => rcases h c rfl with rfl | rfl | rfl <;> rfl

theorem Ends.wholeEnd {r : List Char} (h : Ends r) (negative : Bool) (n : Nat) :
    wholeEnd negative n r = .ok (wholeNumber negative n, r) := by
  cases r with
  | nil => rfl
  | cons c r => rcases h c rfl with rfl | rfl | rfl <;> rfl

theorem Ends.floatEnd {r : List Char} (h : Ends r) (negative : Bool) (n : Nat) (power : Int) :
    floatEnd negative n power r = finishFloat negative n power r := by
  cases r with
  | nil => rfl
  | cons c r => rcases h c rfl with rfl | rfl | rfl <;> rfl

theorem gather_digits {limit n : Nat} {ds r : List Char} (hds : ∀ d ∈ ds, d.isDigit = true)
    (hr : startsWithDigit r = false) (hfits : Nat.ofDigitChars 10 ds n ≤ limit) (count : Nat) :
    gather limit n count (ds ++ r) = (Nat.ofDigitChars 10 ds n, count + ds.length, r) := by
  induction ds generalizing n count with
  | nil =>
    cases r with
    | nil => rfl
    | cons c r =>
      have hc : c.isDigit = false := hr
      simp [gather, hc]
  | cons d ds ih =>
    obtain ⟨hd, hds⟩ := List.forall_mem_cons.mp hds
    rw [Nat.ofDigitChars_cons] at hfits ⊢
    have hnext : 10 * n + Numeral.digitValue d ≤ limit := (Decimal.le_ofDigitChars ds _).trans hfits
    rw [List.cons_append, gather]
    simp only [hd, hnext, Bool.true_and, decide_true, if_true]
    rw [Numeral.digitValue, ih hds hfits]
    simp [Nat.add_assoc, Nat.add_comm 1]

/-- No number but zero starts with a zero. -/
theorem head_toDigits {n : Nat} (h : n ≠ 0) : ∀ c ∈ (Nat.toDigits 10 n).head?, c ≠ '0' := by
  induction n using Nat.strongRecOn with
  | ind n ih =>
    rcases Nat.lt_or_ge n 10 with hlt | hge
    · have hdigits : ∀ n < 10, n ≠ 0 → n.digitChar ≠ '0' := by decide
      rw [Nat.toDigits_of_lt_base hlt]
      intro c hc
      rw [← Option.some.inj hc]
      exact hdigits n hlt h
    · rw [Nat.toDigits_of_base_le (by decide) hge, List.head?_append_of_ne_nil _ Nat.toDigits_ne_nil]
      exact ih (n / 10) (by omega) (by omega)

theorem number_toDigits (negative : Bool) {n : Nat} (hn : n < 2 ^ 64) {r : List Char} (hr : Ends r) :
    number negative (Nat.toDigits 10 n ++ r) = .ok (wholeNumber negative n, r) := by
  rcases Nat.eq_zero_or_pos n with rfl | hpos
  · show number negative ('0' :: r) = _
    rw [number, hr.startsWithDigit]
    exact hr.wholeEnd negative 0
  · have hdigits : ∀ d ∈ Nat.toDigits 10 n, d.isDigit = true :=
      fun _ hd => Nat.isDigit_of_mem_toDigits (by decide) (by decide) hd
    have hfits : Nat.ofDigitChars 10 (Nat.toDigits 10 n) 0 ≤ 0xFFFFFFFFFFFFFFFF := by
      rw [Nat.ofDigitChars_ten_toDigits]
      omega
    have hgather := gather_digits hdigits hr.startsWithDigit hfits 0
    rw [Nat.ofDigitChars_ten_toDigits] at hgather
    obtain ⟨c, ds, hcs⟩ := List.exists_cons_of_ne_nil (Nat.toDigits_ne_nil (b := 10) (n := n))
    have hc : c ≠ '0' := head_toDigits hpos.ne' c (by rw [hcs]; rfl)
    rw [hcs, List.cons_append] at hgather ⊢
    unfold number
    split
    · next heq => cases heq
    · next heq => exact absurd (List.cons.inj heq).1 hc
    · next heq =>
      obtain ⟨rfl, rfl⟩ := List.cons.inj heq
      rw [if_pos (hdigits c (by rw [hcs]; exact List.mem_cons_self)), hgather]
      simp only [hr.startsWithDigit, Bool.false_eq_true, if_false]
      exact hr.wholeEnd negative n

/-- Numbers are integers that 64 bits hold, with a sign or without; a zero may be below zero. -/
inductive Integral : Json → Prop where
  | null : Integral .null
  | bool (b : Bool) : Integral (.bool b)
  | whole {n : Int} (low : -2 ^ 63 ≤ n) (high : n < 2 ^ 64) : Integral (.whole n)
  | negativeZero : Integral (.float (.signedZero true))
  | string (s : String) : Integral (.string s)
  | array {items : List Json} (items_integral : ∀ v ∈ items, Integral v) : Integral (.array items)
  | object {fields : List (String × Json)} (fields_integral : ∀ f ∈ fields, Integral f.2) : Integral (.object fields)

/-- Lists and objects lie no deeper in each other than so many. -/
inductive Nested : Nat → Json → Prop where
  | null (n : Nat) : Nested n .null
  | bool (n : Nat) (b : Bool) : Nested n (.bool b)
  | whole (n : Nat) (m : Int) : Nested n (.whole m)
  | float (n : Nat) (x : Binary64) : Nested n (.float x)
  | string (n : Nat) (s : String) : Nested n (.string s)
  | array {n : Nat} {items : List Json} (items_nested : ∀ v ∈ items, Nested n v) : Nested (n + 1) (.array items)
  | object {n : Nat} {fields : List (String × Json)} (fields_nested : ∀ f ∈ fields, Nested n f.2) :
      Nested (n + 1) (.object fields)

theorem nested_of_parse {text : List Char} {v : Json} (h : parse text = .ok v) : Nested maxNesting v := by
  obtain ⟨rest, hvalue, -⟩ := value_of_parse h
  have hnumber : ∀ (n : Nat) (m : Number), Nested n m.toJson := by
    intro n m
    cases m with
    | whole m => exact .whole n m
    | float x => exact .float n x
  have hleaves : ∀ n, OfLeaves (Nested n) := fun n => ⟨.null n, .bool n, fun _ => hnumber n _, .string n⟩
  have hnested : ∀ n, OfNested (Nested n) (fun fields => ∀ f ∈ fields, Nested n f.2) (Nested (n + 1)) := fun n =>
    ⟨.array, List.forall_mem_nil _, fun fields name v hfields hv f hf =>
      (mem_setField hf).elim (hfields f) fun heq => heq ▸ hv, .object⟩
  exact value_yields hleaves hnested maxNesting text v rest hvalue

/-! ### Leaves -/

theorem isSpace_of_isDigit {c : Char} (h : c.isDigit = true) : isSpace c = false := by
  have hne : c ≠ ' ' ∧ c ≠ '\n' ∧ c ≠ '\t' ∧ c ≠ '\r' :=
    ⟨ne_of_isDigit h rfl, ne_of_isDigit h rfl, ne_of_isDigit h rfl, ne_of_isDigit h rfl⟩
  simp [isSpace, hne]

/-- Outside of lists and objects it does not matter how deep the value lies. -/
theorem exists_valueWith (levels : Nat) : ∃ nested?, value levels = valueWith nested? := by
  cases levels with
  | zero => exact ⟨none, rfl⟩
  | succ levels => exact ⟨some (value levels), rfl⟩

theorem value_digits (levels : Nat) {n : Nat} (hn : n < 2 ^ 64) {r : List Char} (hr : Ends r) :
    value levels (Nat.toDigits 10 n ++ r) = .ok (.whole n, r) := by
  obtain ⟨nested?, hvalue⟩ := exists_valueWith levels
  obtain ⟨c, ds, hcs⟩ := List.exists_cons_of_ne_nil (Nat.toDigits_ne_nil (b := 10) (n := n))
  have hdigit : c.isDigit = true := Nat.isDigit_of_mem_toDigits (by decide) (by decide) (hcs ▸ List.mem_cons_self)
  have hothers : (c == 'n') = false ∧ (c == 't') = false ∧ (c == 'f') = false ∧ (c == '-') = false := by
    refine ⟨?_, ?_, ?_, ?_⟩ <;> exact beq_false_of_ne (ne_of_isDigit hdigit rfl)
  have hread := number_toDigits false hn hr
  rw [hcs, List.cons_append] at hread ⊢
  rw [hvalue, valueWith, skipSpace_cons (isSpace_of_isDigit hdigit)]
  simp only [hothers, hdigit, hread, Bool.false_eq_true, if_false, if_true]
  rfl

theorem value_minus (levels : Nat) (cs : List Char) :
    value levels ('-' :: cs) = (number true cs).map fun (n, rest) => (n.toJson, rest) := by
  obtain ⟨nested?, hvalue⟩ := exists_valueWith levels
  rw [hvalue]
  rfl

theorem value_whole (levels : Nat) {n : Int} (hlow : -2 ^ 63 ≤ n) (hhigh : n < 2 ^ 64) {r : List Char} (hr : Ends r) :
    value levels ((toString n).toList ++ r) = .ok (.whole n, r) := by
  cases n with
  | ofNat n =>
    rw [Numeral.toList_toString_ofNat]
    exact value_digits levels (by simpa using hhigh) hr
  | negSucc n =>
    have hn : n + 1 ≤ 2 ^ 63 := by omega
    have hnumber : wholeNumber true (n + 1) = .whole (Int.negSucc n) := by
      have hcond : ¬ (n + 1 = 0 ∨ 0x8000000000000000 < n + 1) := by omega
      rw [wholeNumber, Bool.not_true, if_neg Bool.false_ne_true, if_neg hcond]
      rfl
    rw [Numeral.toList_toString_negSucc, List.cons_append, value_minus, number_toDigits true (by omega) hr, hnumber]
    rfl

theorem value_negativeZero (levels : Nat) {r : List Char} (hr : Ends r) :
    value levels (compact (.float (.signedZero true)) ++ r) = .ok (.float (.signedZero true), r) := by
  have htext : compact (.float (.signedZero true)) = ['-', '0', '.', '0'] := by decide +kernel
  have hscale : scale? 4 (.ofNat 0) (0 - (1 : Nat)) = some (.signedZero false) := by decide +kernel
  have hgather : gather 0xFFFFFFFFFFFFFFFF 0 0 ('0' :: r) = (0, 1, r) :=
    gather_digits (show ∀ d ∈ ['0'], d.isDigit = true by simp) hr.startsWithDigit (Nat.zero_le _) 0
  have hfraction : fractionPart true 0 0 ('0' :: r) = .ok (.float (.signedZero true), r) := by
    rw [fractionPart, hgather]
    simp only [hr.startsWithDigit, Bool.false_eq_true, if_false, Nat.one_ne_zero]
    rw [hr.floatEnd, finishFloat, hscale]
    rfl
  rw [htext]
  show value levels ('-' :: '0' :: '.' :: '0' :: r) = _
  rw [value_minus]
  show (fractionPart true 0 0 ('0' :: r)).map _ = _
  rw [hfraction]
  rfl

/-! ## (3) Values -/

/-- A text that starts as a value does. -/
def Starts (cs : List Char) : Prop := ∃ c ds, cs = c :: ds ∧ isSpace c = false ∧ c ≠ ']'

theorem Starts.append {cs : List Char} (h : Starts cs) (r : List Char) : Starts (cs ++ r) := by
  obtain ⟨c, ds, rfl, hc⟩ := h
  exact ⟨c, ds ++ r, rfl, hc⟩

theorem starts_compact {v : Json} (h : v.Integral) : Starts (compact v) := by
  cases h with
  | null => exact ⟨_, _, rfl, by decide, by decide⟩
  | bool b => cases b <;> exact ⟨_, _, rfl, by decide, by decide⟩
  | @whole n =>
    show Starts (toString n).toList
    cases n with
    | ofNat n =>
      obtain ⟨c, ds, hcs⟩ := List.exists_cons_of_ne_nil (Nat.toDigits_ne_nil (b := 10) (n := n))
      have hc : c.isDigit = true := Nat.isDigit_of_mem_toDigits (by decide) (by decide) (hcs ▸ List.mem_cons_self)
      exact ⟨c, ds, (Numeral.toList_toString_ofNat n).trans hcs, isSpace_of_isDigit hc, ne_of_isDigit hc rfl⟩
    | negSucc n => exact ⟨_, _, Numeral.toList_toString_negSucc n, by decide, by decide⟩
  | negativeZero => exact ⟨'-', ['0', '.', '0'], by decide +kernel, by decide, by decide⟩
  | string s => exact ⟨_, _, rfl, by decide, by decide⟩
  | array => exact ⟨_, _, rfl, by decide, by decide⟩
  | object => exact ⟨_, _, rfl, by decide, by decide⟩

/-- Texts, each behind a comma, and the bracket that closes them. -/
def separated (closer : Char) (texts : List (List Char)) (r : List Char) : List Char :=
  texts.flatMap (',' :: ·) ++ closer :: r

theorem ends_separated {closer : Char} (h : closer = ']' ∨ closer = '\x7d') (texts : List (List Char)) (r : List Char) :
    Ends (separated closer texts r) := by
  cases texts with
  | nil => exact .cons (.inr h) r
  | cons t texts => exact .cons (.inl rfl) _

theorem length_le_separated (closer : Char) (texts : List (List Char)) (r : List Char) :
    texts.length < (separated closer texts r).length := by
  induction texts with
  | nil => simp [separated]
  | cons t texts ih =>
    simp only [separated, List.flatMap_cons, List.length_append, List.length_cons] at ih ⊢
    omega

section Items

variable {item : List Char → Reading Json} {fuel : Nat} {cs rest : List Char} {v : Json}

theorem listTail_first (hcs : Starts cs) (hread : item cs = .ok (v, rest)) (read : List Json) :
    listTail item (fuel + 1) true read cs = listTail item fuel false (v :: read) rest := by
  obtain ⟨c, ds, rfl, hspace, hcloser⟩ := hcs
  rw [listTail, skipSpace_cons hspace]
  simp only [beq_false_of_ne hcloser, hread, Bool.false_eq_true, if_false, if_true]
  rfl

theorem listTail_comma (hcs : Starts cs) (hread : item cs = .ok (v, rest)) (read : List Json) :
    listTail item (fuel + 1) false read (',' :: cs) = listTail item fuel false (v :: read) rest := by
  obtain ⟨c, ds, rfl, hspace, hcloser⟩ := hcs
  rw [listTail, skipSpace_cons (by decide)]
  simp only [skipSpace_cons hspace, beq_false_of_ne hcloser, hread]
  rfl

theorem listTail_separated {items : List Json} (hitem : ∀ v ∈ items, ∀ r, Ends r → item (compact v ++ r) = .ok (v, r))
    (hstarts : ∀ v ∈ items, Starts (compact v)) (hfuel : items.length < fuel) (read : List Json) (r : List Char) :
    listTail item fuel false read (separated ']' (items.map compact) r) = .ok (read.reverse ++ items, r) := by
  induction items generalizing fuel read with
  | nil =>
    obtain ⟨fuel, rfl⟩ := Nat.exists_eq_add_one.mpr hfuel
    rw [List.append_nil]
    rfl
  | cons v items ih =>
    obtain ⟨fuel, rfl⟩ := Nat.exists_eq_add_one.mpr (Nat.zero_lt_of_lt hfuel)
    obtain ⟨hv, hitem⟩ := List.forall_mem_cons.mp hitem
    obtain ⟨hstart, hstarts⟩ := List.forall_mem_cons.mp hstarts
    have htext : separated ']' ((v :: items).map compact) r = ',' :: (compact v ++ separated ']' (items.map compact) r) := by
      simp [separated]
    rw [htext, listTail_comma (hstart.append _) (hv _ (ends_separated (.inl rfl) _ r)),
      ih hitem hstarts (Nat.lt_of_succ_lt_succ hfuel)]
    simp

/-- A field as it stands in an object. -/
def fieldText (f : String × Json) : List Char := stringText f.1 ++ ':' :: compact f.2

theorem fieldText_append (f : String × Json) (r : List Char) :
    fieldText f ++ r = '"' :: (f.1.toList.flatMap escapedChar ++ '"' :: ':' :: (compact f.2 ++ r)) := by
  simp [fieldText, stringText]

theorem objectTail_first (hread : item cs = .ok (v, rest)) (read : List (String × Json)) (name : String) :
    objectTail item (fuel + 1) true read ('"' :: (name.toList.flatMap escapedChar ++ '"' :: ':' :: cs)) =
      objectTail item fuel false (setField read name v) rest := by
  rw [objectTail, skipSpace_cons (by decide)]
  simp only [stringTail_text]
  show (item cs).bind _ = _
  rw [hread]
  rfl

theorem objectTail_comma (hread : item cs = .ok (v, rest)) (read : List (String × Json)) (name : String) :
    objectTail item (fuel + 1) false read (',' :: '"' :: (name.toList.flatMap escapedChar ++ '"' :: ':' :: cs)) =
      objectTail item fuel false (setField read name v) rest := by
  rw [objectTail, skipSpace_cons (by decide)]
  simp only [skipSpace_cons (show isSpace '"' = false by decide), stringTail_text]
  show (item cs).bind _ = _
  rw [hread]
  rfl

theorem setField_new {fields : List (String × Json)} {name : String} (h : name ∉ fields.map (·.1)) (v : Json) :
    setField fields name v = fields ++ [(name, v)] := by
  refine if_neg fun hany => h ?_
  obtain ⟨f, hf, hname⟩ := List.any_eq_true.mp hany
  exact beq_iff_eq.mp hname ▸ List.mem_map_of_mem hf

theorem objectTail_separated {fields : List (String × Json)}
    (hitem : ∀ f ∈ fields, ∀ r, Ends r → item (compact f.2 ++ r) = .ok (f.2, r)) (hfuel : fields.length < fuel)
    {read : List (String × Json)} (hnames : ((read ++ fields).map (·.1)).Nodup) (r : List Char) :
    objectTail item fuel false read (separated '\x7d' (fields.map fieldText) r) = .ok (read ++ fields, r) := by
  induction fields generalizing fuel read with
  | nil =>
    obtain ⟨fuel, rfl⟩ := Nat.exists_eq_add_one.mpr hfuel
    rw [List.append_nil]
    rfl
  | cons f fields ih =>
    obtain ⟨fuel, rfl⟩ := Nat.exists_eq_add_one.mpr (Nat.zero_lt_of_lt hfuel)
    obtain ⟨hf, hitem⟩ := List.forall_mem_cons.mp hitem
    have htext : separated '\x7d' ((f :: fields).map fieldText) r =
        ',' :: (fieldText f ++ separated '\x7d' (fields.map fieldText) r) := by
      simp [separated]
    have hsplit : read ++ f :: fields = (read ++ [f]) ++ fields := by simp
    have hnew : f.1 ∉ read.map (·.1) := by
      intro hin
      rw [List.map_append, List.nodup_append] at hnames
      exact hnames.2.2 f.1 hin f.1 (List.mem_map_of_mem List.mem_cons_self) rfl
    rw [hsplit] at hnames ⊢
    rw [htext, fieldText_append, objectTail_comma (hf _ (ends_separated (.inr rfl) _ r)), setField_new hnew,
      ih hitem (Nat.lt_of_succ_lt_succ hfuel) hnames]

end Items

theorem compactItems_cons (v : Json) (vs : List Json) (r : List Char) :
    compactItems (v :: vs) ++ ']' :: r = compact v ++ separated ']' (vs.map compact) r := by
  induction vs generalizing v with
  | nil => rfl
  | cons w vs ih =>
    have hcons : compactItems (v :: w :: vs) = compact v ++ ',' :: compactItems (w :: vs) := rfl
    rw [hcons, List.append_assoc, List.cons_append, ih]
    simp [separated]

theorem compactFields_cons (f : String × Json) (fs : List (String × Json)) (r : List Char) :
    compactFields (f :: fs) ++ '\x7d' :: r = fieldText f ++ separated '\x7d' (fs.map fieldText) r := by
  induction fs generalizing f with
  | nil => rfl
  | cons g fs ih =>
    have hcons : compactFields (f :: g :: fs) = fieldText f ++ ',' :: compactFields (g :: fs) := rfl
    rw [hcons, List.append_assoc, List.cons_append, ih]
    simp [separated]

theorem value_array {n : Nat} {items : List Json} (hitems : ∀ v ∈ items, v.Integral)
    (hitem : ∀ v ∈ items, ∀ r, Ends r → value n (compact v ++ r) = .ok (v, r)) (r : List Char) :
    value (n + 1) (compact (.array items) ++ r) = .ok (.array items, r) := by
  have hread : ∀ cs, value (n + 1) ('[' :: cs) =
      (listTail (value n) (cs.length + 1) true [] cs).map fun read => (.array read.1, read.2) := fun _ => rfl
  have htext : compact (.array items) ++ r = '[' :: (compactItems items ++ ']' :: r) := by simp [compact]
  rw [htext, hread]
  cases items with
  | nil => rfl
  | cons v items =>
    obtain ⟨hv, hitem⟩ := List.forall_mem_cons.mp hitem
    obtain ⟨hintegral, hitems⟩ := List.forall_mem_cons.mp hitems
    have hfuel := length_le_separated ']' (items.map compact) r
    rw [compactItems_cons, listTail_first ((starts_compact hintegral).append _) (hv _ (ends_separated (.inl rfl) _ r)),
      listTail_separated hitem fun w hw => starts_compact (hitems w hw)]
    · rfl
    · simp only [List.length_map, List.length_append] at hfuel ⊢
      omega

theorem value_object {n : Nat} {fields : List (String × Json)} (hnames : (fields.map (·.1)).Nodup)
    (hitem : ∀ f ∈ fields, ∀ r, Ends r → value n (compact f.2 ++ r) = .ok (f.2, r)) (r : List Char) :
    value (n + 1) (compact (.object fields) ++ r) = .ok (.object fields, r) := by
  have hread : ∀ cs, value (n + 1) ('\x7b' :: cs) =
      (objectTail (value n) (cs.length + 1) true [] cs).map fun read => (.object read.1, read.2) := fun _ => rfl
  have htext : compact (.object fields) ++ r = '\x7b' :: (compactFields fields ++ '\x7d' :: r) := by simp [compact]
  rw [htext, hread]
  cases fields with
  | nil => rfl
  | cons f fields =>
    obtain ⟨hf, hitem⟩ := List.forall_mem_cons.mp hitem
    have hfuel := length_le_separated '\x7d' (fields.map fieldText) r
    rw [compactFields_cons, fieldText_append, objectTail_first (hf _ (ends_separated (.inr rfl) _ r)),
      setField_new List.not_mem_nil, objectTail_separated hitem _ hnames]
    · rfl
    · simp only [List.length_map, List.length_append, List.length_cons] at hfuel ⊢
      omega

/-- A value with what may follow it in a list or an object. -/
theorem value_compact {v : Json} (hregular : v.Regular) (hintegral : v.Integral) {levels : Nat} (hnested : Nested levels v)
    {r : List Char} (hr : Ends r) : value levels (compact v ++ r) = .ok (v, r) := by
  induction hintegral generalizing levels r with
  | null =>
    obtain ⟨nested?, hvalue⟩ := exists_valueWith levels
    rw [hvalue]
    rfl
  | bool b =>
    obtain ⟨nested?, hvalue⟩ := exists_valueWith levels
    rw [hvalue]
    cases b <;> rfl
  | whole hlow hhigh => exact value_whole levels hlow hhigh hr
  | negativeZero => exact value_negativeZero levels hr
  | string s =>
    obtain ⟨nested?, hvalue⟩ := exists_valueWith levels
    have htext : compact (.string s) ++ r = '"' :: (s.toList.flatMap escapedChar ++ '"' :: r) := by
      simp [compact, stringText]
    rw [hvalue, htext]
    show (stringTail [] _).map _ = _
    rw [stringTail_text]
    rfl
  | array hitems ih =>
    cases hnested with
    | array hnested =>
      cases hregular with
      | array hregular =>
        exact value_array hitems (fun v hv r hr => ih v hv (hregular v hv) (hnested v hv) hr) r
  | object hfields ih =>
    cases hnested with
    | object hnested =>
      cases hregular with
      | object hnames hregular =>
        exact value_object hnames (fun f hf r hr => ih f hf (hregular f hf) (hnested f hf) hr) r

/-- What a text can spell is read back from what is written of it. -/
theorem parse_compact {text : String} {v : Json} (h : parseText text = .ok v) (hintegral : v.Integral) :
    parseText v.toText = .ok v := by
  have hvalue := value_compact (regular_of_parseText h) hintegral (nested_of_parse (parseText_eq_ok.mp h)) .nil
  rw [List.append_nil] at hvalue
  rw [parseText_eq_ok, toText, String.toList_ofList, parse, hvalue]
  rfl

end EntityQuery.Json
