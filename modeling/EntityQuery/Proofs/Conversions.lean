/-
  EntityQuery.Proofs.Conversions — what comes out of a conversion.

  (1) Names. A type name is known by its last segment (`TargetType.LastSegment`), so
  two names with one last segment stand for one type.

  (2) Types. What is converted to a type is of the type (`TargetType.Has`), and what is
  of the type is converted to itself. So converting once more changes nothing
  (`Converter.conversion_typed`).

  (3) Whole types. A value is converted exactly if it denotes a whole number
  (`Value.Denotes`) that the bits of the type hold, and then to this number
  (`Converter.whole_exact`).
-/

import EntityQuery.Proofs.Dates
import EntityQuery.Proofs.Number.Whole

namespace EntityQuery

/-! ## (1) Names -/

namespace TargetType

/-- What stands behind the last dot of a name, or the whole name if there is no dot. -/
def LastSegment (segment name : String) : Prop :=
  '.' ∉ segment.toList ∧ (name = segment ∨ ∃ qualifier, name = qualifier ++ "." ++ segment)

theorem lastSegment_simpleName (name : String) : LastSegment (simpleName name) name := by
  have hsplit : (name.toList.reverse.dropWhile (· != '.')).reverse ++ (simpleName name).toList = name.toList := by
    rw [simpleName, String.toList_ofList, ← List.reverse_append, List.takeWhile_append_dropWhile, List.reverse_reverse]
  refine ⟨?_, ?_⟩
  · intro hdot
    rw [simpleName, String.toList_ofList, List.mem_reverse] at hdot
    have hne : ('.' != '.') = true := List.mem_takeWhile_imp (p := (· != '.')) hdot
    simp at hne
  · cases hrest : name.toList.reverse.dropWhile (· != '.') with
    | nil =>
      rw [hrest, List.reverse_nil, List.nil_append] at hsplit
      exact .inl (String.toList_injective hsplit.symm)
    | cons c rest =>
      -- what is dropped starts at the last dot
      obtain rfl : c = '.' := by
        have hhead := List.head?_dropWhile_not (· != '.') name.toList.reverse
        rw [hrest] at hhead
        simpa using hhead
      rw [hrest] at hsplit
      refine .inr ⟨String.ofList rest.reverse, String.toList_injective ?_⟩
      rw [← hsplit]
      simp

theorem LastSegment.simpleName_eq {segment name : String} (h : LastSegment segment name) : simpleName name = segment := by
  obtain ⟨hdots, hname⟩ := h
  have hall : ∀ c ∈ segment.toList.reverse, (c != '.') = true := by
    intro c hc
    rw [bne_iff_ne]
    rintro rfl
    exact hdots (List.mem_reverse.mp hc)
  have htaken : name.toList.reverse.takeWhile (· != '.') = segment.toList.reverse := by
    rcases hname with rfl | ⟨qualifier, rfl⟩
    · exact List.takeWhile_eq_self_iff.mpr hall
    · have htext : (qualifier ++ "." ++ segment).toList.reverse = segment.toList.reverse ++ '.' :: qualifier.toList.reverse := by
        simp
      rw [htext, List.takeWhile_append_of_pos hall]
      simp
  rw [simpleName, htaken, List.reverse_reverse, String.ofList_toList]

/-- Names that differ in their qualifiers alone. -/
def Synonymous (n m : String) : Prop := ∃ segment, LastSegment segment n ∧ LastSegment segment m

theorem synonymous_iff {n m : String} : Synonymous n m ↔ simpleName n = simpleName m := by
  constructor
  · rintro ⟨segment, hn, hm⟩
    rw [hn.simpleName_eq, hm.simpleName_eq]
  · intro hsame
    exact ⟨simpleName n, lastSegment_simpleName n, hsame ▸ lastSegment_simpleName m⟩

theorem Synonymous.symm {n m : String} (h : Synonymous n m) : Synonymous m n :=
  synonymous_iff.mpr (synonymous_iff.mp h).symm

theorem Synonymous.ofName? {n m : String} (h : Synonymous n m) : ofName? n = ofName? m := by
  unfold TargetType.ofName?
  rw [synonymous_iff.mp h]

/-! ## (2) Types -/

/-- How many bits a whole type has. -/
def bits? : TargetType → Option Nat
  | long => some 64
  | integer => some 32
  | short => some 16
  | byte => some 8
  | _ => none

/-- The numbers that so many bits hold, one of them for the sign. -/
def InBits (bits : Nat) (n : Int) : Prop := -2 ^ (bits - 1) ≤ n ∧ n < 2 ^ (bits - 1)

instance (bits : Nat) (n : Int) : Decidable (InBits bits n) := inferInstanceAs (Decidable (_ ∧ _))

/-- The values of a type. -/
inductive Has : TargetType → Value → Prop
  | string (s : String) : Has .string (.string s)
  | boolean (b : Bool) : Has .boolean (.boolean b)
  | whole {kind : TargetType} {bits : Nat} {n : Int64} : kind.bits? = some bits → InBits bits n.toInt → Has kind (.integer n)
  | double (x : Binary64) : Has .double (.float x)
  | decimal (d : Decimal) : Has .decimal (.decimal d)
  | date (d : Date) : Has .date (.date d)
  | dateTime (t : DateTime) : Has .dateTime (.dateTime t)

/-- The whole types are converted to by one rule, each with its own bits. -/
theorem convert?_whole {kind : TargetType} {bits : Nat} (h : kind.bits? = some bits) :
    kind.convert? = Value.toWhole? (2 ^ (bits - 1)) ∧ bits ≤ 64 := by
  cases kind <;> cases h <;> exact ⟨rfl, by decide⟩

end TargetType

section Whole

variable {bits : Nat} (hbits : bits ≤ 64)
include hbits

/-- A number that fewer bits hold is one of 64 bits. -/
theorem TargetType.InBits.toInt_ofInt {n : Int} (h : InBits bits n) : (Int64.ofInt n).toInt = n := by
  have hhalf : (2 : Int) ^ (bits - 1) ≤ 2 ^ 63 := pow_le_pow_right₀ (by decide) (by omega)
  obtain ⟨hlow, hhigh⟩ := h
  exact Int64.toInt_ofInt_of_le (by omega) (by omega)

theorem Value.toWhole?_eq_some_iff {v w : Value} : v.toWhole? (2 ^ (bits - 1)) = some w ↔
    ∃ n : Int64, w = .integer n ∧ v.whole? = some n.toInt ∧ TargetType.InBits bits n.toInt := by
  constructor
  · intro h
    obtain ⟨n, hwhole, hrange⟩ := Option.bind_eq_some_iff.mp h
    split at hrange
    · next hin =>
      have hexact : (Int64.ofInt n).toInt = n := TargetType.InBits.toInt_ofInt hbits hin
      refine ⟨.ofInt n, (Option.some.inj hrange).symm, ?_, ?_⟩
      · rw [hexact, hwhole]
      · rwa [hexact]
    · cases hrange
  · rintro ⟨n, rfl, hwhole, hin⟩
    rw [toWhole?, hwhole, Option.bind_some]
    refine (if_pos hin).trans ?_
    rw [Int64.ofInt_toInt]

end Whole

namespace TargetType

theorem has_of_convert? {kind : TargetType} {v w : Value} (h : kind.convert? v = some w) : kind.Has w := by
  have hwhole : ∀ bits, kind.bits? = some bits → kind.Has w := by
    intro bits hbits
    obtain ⟨hrule, hle⟩ := convert?_whole hbits
    rw [hrule] at h
    obtain ⟨n, rfl, -, hin⟩ := (Value.toWhole?_eq_some_iff hle).mp h
    exact .whole hbits hin
  cases kind with
  | long => exact hwhole 64 rfl
  | integer => exact hwhole 32 rfl
  | short => exact hwhole 16 rfl
  | byte => exact hwhole 8 rfl
  | string => cases v <;> cases h <;> exact .string _
  | boolean =>
    cases v with
    | string s =>
      simp only [convert?, Value.toBoolean?] at h
      split at h
      · cases h; exact .boolean true
      · split at h
        · cases h; exact .boolean false
        · cases h
    | _ => cases h <;> exact .boolean _
  | double =>
    cases v with
    | string s =>
      change (Numeral.readBinary64? (Text.trim s.toList)).map Value.float = some w at h
      obtain ⟨x, -, rfl⟩ := Option.map_eq_some_iff.mp h
      exact .double x
    | _ => cases h <;> exact .double _
  | decimal =>
    cases v with
    | float x =>
      change (Decimal.ofBinary64? x).map Value.decimal = some w at h
      obtain ⟨d, -, rfl⟩ := Option.map_eq_some_iff.mp h
      exact .decimal d
    | string s =>
      change (Decimal.read? (Text.trim s.toList)).map Value.decimal = some w at h
      obtain ⟨d, -, rfl⟩ := Option.map_eq_some_iff.mp h
      exact .decimal d
    | _ => cases h <;> exact .decimal _
  | date =>
    cases v with
    | string s =>
      change (Calendar.readDate? (Text.trim s.toList)).map Value.date = some w at h
      obtain ⟨d, -, rfl⟩ := Option.map_eq_some_iff.mp h
      exact .date d
    | _ => cases h <;> exact .date _
  | dateTime =>
    cases v with
    | string s =>
      change (Calendar.readDateTime? (Text.trim s.toList)).map Value.dateTime = some w at h
      obtain ⟨t, -, rfl⟩ := Option.map_eq_some_iff.mp h
      exact .dateTime t
    | _ => cases h <;> exact .dateTime _

theorem convert?_of_has {kind : TargetType} {w : Value} (h : kind.Has w) : kind.convert? w = some w := by
  cases h with
  | whole hbits hin =>
    obtain ⟨hrule, hle⟩ := convert?_whole hbits
    rw [hrule]
    exact (Value.toWhole?_eq_some_iff hle).mpr ⟨_, rfl, rfl, hin⟩
  | _ => rfl

end TargetType

namespace Converter

variable {v w : Value} {name : String}

theorem standard_eq_ok_iff :
    standard v name = .ok w ↔ ∃ kind, TargetType.ofName? name = some kind ∧ kind.convert? v = some w := by
  unfold standard
  cases h : (TargetType.ofName? name).bind (·.convert? v) with
  | none =>
    refine ⟨nofun, ?_⟩
    rintro ⟨kind, hname, hconvert⟩
    rw [hname, Option.bind_some, hconvert] at h
    cases h
  | some u =>
    obtain ⟨kind, hname, hconvert⟩ := Option.bind_eq_some_iff.mp h
    constructor
    · intro hok
      cases hok
      exact ⟨kind, hname, hconvert⟩
    · rintro ⟨kind', hname', hconvert'⟩
      obtain rfl : kind = kind' := Option.some.inj (hname.symm.trans hname')
      rw [hconvert] at hconvert'
      rw [Option.some.inj hconvert']

theorem standard_eq_ok_iff_of_ofName? {kind : TargetType} (hname : TargetType.ofName? name = some kind) :
    standard v name = .ok w ↔ kind.convert? v = some w := by
  rw [standard_eq_ok_iff, hname]
  constructor
  · rintro ⟨kind', hkind, hconvert⟩
    rwa [Option.some.inj hkind]
  · exact fun hconvert => ⟨kind, rfl, hconvert⟩

/-- What is not converted is an error that shows the value and the name. -/
theorem standard_cases (v : Value) (name : String) :
    (∃ w, standard v name = .ok w) ∨ standard v name = .error (.conversion v.toText name) := by
  unfold standard
  split
  · exact .inl ⟨_, rfl⟩
  · exact .inr rfl

theorem standard_ok_of_synonymous {n m : String} (h : TargetType.Synonymous n m) (hok : standard v n = .ok w) :
    standard v m = .ok w := by
  rw [standard_eq_ok_iff] at hok ⊢
  rwa [← h.ofName?]

/-- What a value is converted to is of the type that the name stands for, and is
    converted to itself. Names that differ in their qualifiers alone convert alike, up to
    the name in the error. -/
theorem conversion_typed (v : Value) (n m : String) :
    (∀ w, standard v n = .ok w →
      (∃ kind, TargetType.ofName? n = some kind ∧ kind.Has w) ∧ standard w n = .ok w) ∧
    (TargetType.Synonymous n m →
      (∀ w, standard v n = .ok w → standard w m = .ok w) ∧
      ((∃ w, standard v n = .ok w ∧ standard v m = .ok w) ∨
        standard v n = .error (.conversion v.toText n) ∧ standard v m = .error (.conversion v.toText m))) := by
  have htyped : ∀ w, standard v n = .ok w →
      (∃ kind, TargetType.ofName? n = some kind ∧ kind.Has w) ∧ standard w n = .ok w := by
    intro w hok
    obtain ⟨kind, hname, hconvert⟩ := standard_eq_ok_iff.mp hok
    have hhas : kind.Has w := TargetType.has_of_convert? hconvert
    exact ⟨⟨kind, hname, hhas⟩, standard_of_convert? hname (TargetType.convert?_of_has hhas)⟩
  refine ⟨htyped, fun hsame => ⟨fun w hok => standard_ok_of_synonymous hsame (htyped w hok).2, ?_⟩⟩
  rcases standard_cases v n with ⟨w, hn⟩ | hn
  · exact .inl ⟨w, hn, standard_ok_of_synonymous hsame hn⟩
  · refine .inr ⟨hn, ?_⟩
    rcases standard_cases v m with ⟨w, hm⟩ | hm
    · rw [standard_ok_of_synonymous hsame.symm hm] at hn
      cases hn
    · exact hm

/-- A text as a short whole number, under its qualified name and its own. -/
theorem conversion_typed_short :
    TargetType.Synonymous "java.lang.Short" "Short" ∧
      standard (.string " -0042 ") "java.lang.Short" = .ok (.integer (-42)) ∧
      TargetType.short.Has (.integer (-42)) ∧ standard (.integer (-42)) "Short" = .ok (.integer (-42)) := by
  have hsame : TargetType.Synonymous "java.lang.Short" "Short" :=
    ⟨"Short", ⟨by decide, .inr ⟨"java.lang", by decide⟩⟩, ⟨by decide, .inl rfl⟩⟩
  have hok : standard (.string " -0042 ") "java.lang.Short" = .ok (.integer (-42)) := by
    exact standard_eq_ok_iff.mpr ⟨.short, by decide, by rfl⟩
  obtain ⟨htyped, hsynonymous⟩ := conversion_typed (.string " -0042 ") "java.lang.Short" "Short"
  obtain ⟨⟨kind, hname, hhas⟩, -⟩ := htyped _ hok
  have hkind : TargetType.ofName? "java.lang.Short" = some .short := by decide
  obtain rfl : kind = .short := Option.some.inj (hname.symm.trans hkind)
  exact ⟨hsame, hok, hhas, (hsynonymous hsame).1 _ hok⟩

end Converter

/-! ## (3) Whole types -/

namespace Value

/-- The whole number that a value denotes: a float and a decimal the number that they are
    exactly, a text what its digits spell, blanks around them apart. -/
inductive Denotes : Value → Int → Prop
  | integer (n : Int64) : Denotes (.integer n) n.toInt
  | float {x : Binary64} {n : Int} : x.rational? = some (n : ℚ) → Denotes (.float x) n
  | decimal {d : Decimal} {n : Int} : d.value = n → Denotes (.decimal d) n
  | text {s : String} {front body back : List Char} {n : Int} : s.toList = front ++ (body ++ back) →
      Text.AllBlank front → Text.AllBlank back → Numeral.Whole body n → Denotes (.string s) n

theorem whole?_eq_some_iff (v : Value) (n : Int) : v.whole? = some n ↔ v.Denotes n := by
  constructor
  · intro h
    cases v with
    | integer m => cases h; exact .integer m
    | float x => exact .float ((Binary64.toInt?_eq_some_iff x n).mp h)
    | decimal d => exact .decimal ((Decimal.toInt?_eq_some_iff d n).mp h)
    | string s =>
      obtain ⟨front, body, back, htext, hfront, hback, hbody⟩ := Numeral.readInt?_trim_iff.mp h
      exact .text htext hfront hback hbody
    | _ => cases h
  · intro h
    cases h with
    | integer m => rfl
    | float h => exact (Binary64.toInt?_eq_some_iff _ n).mpr h
    | decimal h => exact (Decimal.toInt?_eq_some_iff _ n).mpr h
    | text htext hfront hback hbody => exact Numeral.readInt?_trim_iff.mpr ⟨_, _, _, htext, hfront, hback, hbody⟩

end Value

namespace Converter

/-- A value is converted to a whole type exactly if it denotes a whole number that the
    bits of the type hold, and then to this number; every other value is an error. -/
theorem whole_exact {name : String} {kind : TargetType} {bits : Nat} (hname : TargetType.ofName? name = some kind)
    (hbits : kind.bits? = some bits) (v : Value) :
    (∀ w, standard v name = .ok w ↔
      ∃ n : Int64, w = .integer n ∧ v.Denotes n.toInt ∧ TargetType.InBits bits n.toInt) ∧
    (standard v name = .error (.conversion v.toText name) ↔ ∀ n, v.Denotes n → ¬ TargetType.InBits bits n) := by
  obtain ⟨hrule, hle⟩ := TargetType.convert?_whole hbits
  have hok : ∀ w, standard v name = .ok w ↔
      ∃ n : Int64, w = .integer n ∧ v.Denotes n.toInt ∧ TargetType.InBits bits n.toInt := by
    intro w
    simp only [← Value.whole?_eq_some_iff]
    rw [standard_eq_ok_iff_of_ofName? hname, hrule, Value.toWhole?_eq_some_iff hle]
  refine ⟨hok, ?_, ?_⟩
  · intro herror n hdenotes hin
    have hexact : (Int64.ofInt n).toInt = n := TargetType.InBits.toInt_ofInt hle hin
    have hconverted := (hok (.integer (.ofInt n))).mpr ⟨_, rfl, hexact.symm ▸ hdenotes, hexact.symm ▸ hin⟩
    rw [herror] at hconverted
    cases hconverted
  · intro hnone
    rcases standard_cases v name with ⟨w, h⟩ | h
    · obtain ⟨n, -, hdenotes, hin⟩ := (hok w).mp h
      exact absurd hin (hnone _ hdenotes)
    · exact h

/-- The least byte as a decimal, and the float right above the greatest long. -/
theorem whole_exact_edges :
    let least := Value.decimal ⟨true, 12800, 2, by decide, by decide⟩
    let above := Value.float (.ofBits 0x43E0000000000000)
    TargetType.ofName? "java.lang.Byte" = some .byte ∧ TargetType.ofName? "long" = some .long ∧
      TargetType.bits? .byte = some 8 ∧ TargetType.bits? .long = some 64 ∧
      standard least "java.lang.Byte" = .ok (.integer (-128)) ∧
      standard above "long" = .error (.conversion above.toText "long") := by
  intro least above
  have hbyte : TargetType.ofName? "java.lang.Byte" = some .byte := by decide
  have hlong : TargetType.ofName? "long" = some .long := by decide
  refine ⟨hbyte, hlong, rfl, rfl, ?_, ?_⟩
  · refine ((whole_exact hbyte rfl least).1 _).mpr ⟨-128, rfl, .decimal ?_, by decide⟩
    have hleast : (-128 : Int64).toInt = -128 := by decide
    norm_num [Decimal.value, Decimal.numerator, Decimal.unit, hleast]
  · refine (whole_exact hlong rfl above).2.mpr ?_
    intro n hdenotes hin
    change (Value.float (.ofBits 0x43E0000000000000)).Denotes n at hdenotes
    have hrational : (Binary64.ofBits 0x43E0000000000000).rational? = some (9223372036854775808 : Int) := by
      change some (Binary64.magnitude 0x43E0000000000000) = _
      norm_num [Binary64.magnitude, Binary64.significand, Binary64.exponent, Binary64.hiddenBit]
    cases hdenotes with
    | float h =>
      have hn : n = 9223372036854775808 := by
        have hcast := Option.some.inj (h.symm.trans hrational)
        exact_mod_cast hcast
      have hhigh := hin.2
      omega

end Converter

end EntityQuery
