/-
  EntityQuery.Proofs.Grammar.Faults — what never reports that a condition is nested too
  deep.

  (1) Reading a text: no lexeme has that fault, so a parser on a text cannot pass it on
  (`Parser.Clean`).

  (2) Parsers outside terms. Such parsers are made of those that take a token or expect
  one, by going on and by choosing (`Parser.Plain`).
-/

import EntityQuery.Proofs.Grammar.Prediction

namespace EntityQuery

def QueryError.isTooDeep : QueryError → Bool
  | .malformed (.nestedTooDeep _) _ => true
  | _ => false

/-! ## (1) Reading -/

namespace Token

/-- A scan whose fault, if it is one, is not one of nesting. -/
def Scan.NotDeep (s : Scan) : Prop :=
  ∀ fault position, s.outcome = .error fault → (QueryError.malformed fault position).isTooDeep = false

theorem notDeep_ok {s : Scan} {kind : TokenKind} (h : s.outcome = .ok kind) : s.NotDeep := by
  intro fault position he
  rw [h] at he
  cases he

theorem notDeep_error {s : Scan} {fault : SyntaxFault} (h : s.outcome = .error fault)
    (hfault : ∀ position, (QueryError.malformed fault position).isTooDeep = false) : s.NotDeep := by
  intro _ position he
  rw [h] at he
  cases he
  exact hfault position

theorem scanString_notDeep (c : Char) (cs : List Char) : (scanString c cs).NotDeep := by
  unfold scanString
  split
  · exact notDeep_error rfl fun _ => rfl
  · exact notDeep_ok rfl

theorem scanJson_notDeep (cs : List Char) : (scanJson cs).NotDeep := by
  unfold scanJson
  simp only
  split
  · exact notDeep_ok rfl
  · exact notDeep_error rfl fun _ => rfl
  · exact notDeep_error rfl fun _ => rfl

theorem scanNumber_notDeep (cs : List Char) : (scanNumber cs).NotDeep := by
  rcases scanNumber_cases cs with ⟨i, h⟩ | ⟨x, h⟩ | h
  · exact notDeep_ok h
  · exact notDeep_ok h
  · exact notDeep_error h fun _ => rfl

theorem scanMark_notDeep (short long : Mark) (c : Char) (cs : List Char) : (scanMark short long c cs).NotDeep := by
  unfold scanMark
  split
  · exact notDeep_ok rfl
  · exact notDeep_ok rfl

theorem scanParam_notDeep (c : Char) (p : Char → Bool) (cs : List Char) : (scanParam c p cs).NotDeep := by
  intro fault position he
  simp only [scanParam] at he
  split at he
  · cases he
    rfl
  · cases he

theorem scan_notDeep (c : Char) (cs : List Char) : (scan c cs).NotDeep := by
  exact scan_cases (P := Scan.NotDeep) c cs (scanString_notDeep c cs) (scanJson_notDeep _) (fun _ => scanParam_notDeep _ _ _)
    (fun _ => scanParam_notDeep _ _ _) (fun _ => scanNumber_notDeep _) (fun _ => notDeep_ok rfl)
    (fun _ _ => scanMark_notDeep _ _ c cs) (fun _ => notDeep_ok rfl) (notDeep_error rfl fun _ => rfl)
    (notDeep_error rfl fun _ => rfl)

theorem reading_notDeep {s : Scan} (h : s.NotDeep) {position : Position} {e : QueryError}
    (he : s.reading position = .error e) : e.isTooDeep = false := by
  unfold Scan.reading at he
  split at he
  · cases he
  · next fault hfault =>
    cases he
    exact h fault position hfault

/-- No fault of a feed is one of nesting. -/
structure Feed.NotDeep (f : Feed) : Prop where
  upcoming : ∀ e, .error e ∈ f.upcoming → e.isTooDeep = false
  ending : ∀ e, f.ending = .stuck e → e.isTooDeep = false

theorem Feed.NotDeep.next {f : Feed} (h : f.NotDeep) :
    (∀ e, f.next.1 = .error e → e.isTooDeep = false) ∧ f.next.2.NotDeep := by
  obtain ⟨upcoming, ending⟩ := f
  cases upcoming with
  | nil =>
    cases ending with
    | atEnd position => exact ⟨nofun, h⟩
    | stuck fault =>
      refine ⟨fun e he => ?_, h⟩
      cases he
      exact h.ending fault rfl
  | cons r rest =>
    exact ⟨fun e he => h.upcoming e (he ▸ List.mem_cons_self), fun e he => h.upcoming e (List.mem_cons_of_mem _ he),
      h.ending⟩

theorem read_notDeep (position : Position) (cs : List Char) : (Feed.read position cs).NotDeep := by
  fun_induction Feed.read position cs with
  | case1 => exact ⟨nofun, nofun⟩
  | case2 => exact ⟨nofun, nofun⟩
  | case3 position cs here c r hcs hs fault hfault =>
    refine ⟨nofun, fun e he => ?_⟩
    cases he
    exact scan_notDeep c r fault here hfault
  | case4 position cs here c r hcs hs hlt f ih =>
    refine ⟨fun e he => ?_, ih.ending⟩
    rcases List.mem_cons.mp he with he | he
    · exact reading_notDeep (scan_notDeep c r) he.symm
    · exact ih.upcoming e he

end Token

namespace Parser

variable {α β τ : Type} {s m : ParserState} {e : QueryError}

/-- No fault that can still be read is one of nesting. -/
def Clean (s : ParserState) : Prop := s.feed.NotDeep

theorem Clean.advance_ok (h : Clean s) (ha : advance s = .ok () m) : Clean m := by
  obtain ⟨-, hrest⟩ := Token.Feed.NotDeep.next h
  unfold advance at ha
  split at ha
  · next t feed hn =>
    cases ha
    rwa [hn] at hrest
  · cases ha

theorem Clean.advance_error (h : Clean s) (ha : advance s = .error e m) : Clean m ∧ e.isTooDeep = false := by
  obtain ⟨hfault, hrest⟩ := Token.Feed.NotDeep.next h
  unfold advance at ha
  split at ha
  · cases ha
  · next fault feed hn =>
    cases ha
    rw [hn] at hfault hrest
    exact ⟨hrest, hfault e rfl⟩

theorem start_clean {text : String} (h : start text = .ok s) : Clean s := by
  obtain ⟨-, hrest⟩ := (Token.read_notDeep .start text.toList).next
  unfold start at h
  split at h
  · next t feed hn =>
    cases h
    rw [Token.Feed.ofText] at hn
    rwa [hn] at hrest
  · cases h

theorem Takes.clean {ks : List TokenKind} (h : Takes s ks m) (hs : Clean s) : Clean m := by
  induction h with
  | none s => exact hs
  | token ha _ ih => exact ih (hs.advance_ok ha)

/-! ## (2) Parsing -/

/-- A parser that reports no nesting. -/
structure Plain (p : Parser α) : Prop where
  ok : ∀ {s a m}, Clean s → p s = .ok a m → Clean m
  error : ∀ {s e m}, Clean s → p s = .error e m → Clean m ∧ e.isTooDeep = false

namespace Plain

variable {p q : Parser α}

theorem error_ne (h : Plain p) (hs : Clean s) (hdeep : e.isTooDeep = true) : p s ≠ .error e m := by
  intro he
  rw [(h.error hs he).2] at hdeep
  cases hdeep

theorem pure (a : α) : Plain (pure a) where
  ok hs hp := (pure_eq_ok.mp hp).2 ▸ hs
  error _ hp := by cases hp

theorem advance : Plain advance where
  ok hs ha := hs.advance_ok ha
  error hs ha := hs.advance_error ha

theorem bind {f : α → Parser β} (h : Plain p) (hf : ∀ a, Plain (f a)) : Plain (p >>= f) where
  ok hs hp := by
    obtain ⟨a, l, ha, hb⟩ := bind_eq_ok.mp hp
    exact (hf a).ok (h.ok hs ha) hb
  error hs hp := by
    rcases bind_eq_error.mp hp with he | ⟨a, l, ha, he⟩
    · exact h.error hs he
    · exact (hf a).error (h.ok hs ha) he

theorem map (h : Plain p) (f : α → β) : Plain (f <$> p) := by
  rw [map_eq_pure_bind]
  exact h.bind fun a => pure (f a)

theorem get {f : ParserState → Parser α} (h : ∀ s, Plain (f s)) : Plain (get >>= f) where
  ok {s} _ _ hs hp := (h s).ok hs hp
  error {s} _ _ hs hp := (h s).error hs hp

theorem malformed {fault : SyntaxFault} (h : ∀ position, (QueryError.malformed fault position).isTooDeep = false) :
    Plain (malformed fault : Parser α) where
  ok _ hp := absurd hp (malformed_ne_ok fault _)
  error hs hp := by
    cases hp
    exact ⟨hs, h _⟩

theorem unexpected (what : String) : Plain (unexpected what : Parser α) := get fun _ => malformed fun _ => rfl

theorem query (fault : QueryFault) : Plain (throw (.query fault) : Parser α) where
  ok _ hp := by cases hp
  error hs hp := by
    cases hp
    exact ⟨hs, rfl⟩

theorem ite (hp : Plain p) (hq : Plain q) (b : Bool) : Plain (if b = true then p else q) := by
  cases b with
  | true => exact hp
  | false => exact hq

theorem isKind (kind : TokenKind) : Plain (isKind kind) := get fun _ => pure _

theorem accept (kind : TokenKind) : Plain (accept kind) :=
  (isKind kind).bind fun b => ite (advance.bind fun _ => pure true) (pure false) b

theorem expect (kind : TokenKind) : Plain (expect kind) :=
  (accept kind).bind fun b => by
    cases b with
    | true => exact pure ()
    | false => exact unexpected _

theorem expectKeyword (k : Keyword) : Plain (expectKeyword k) :=
  (accept _).bind fun b => by
    cases b with
    | true => exact pure ()
    | false => exact unexpected _

theorem identifier (what : String) : Plain (identifier what) :=
  get fun s => by
    split
    · exact advance.bind fun _ => pure _
    · exact unexpected what

theorem count (k : Keyword) : Plain (count k) :=
  get fun s => by
    split
    · split
      · exact unexpected _
      · exact advance.bind fun _ => pure _
    · exact unexpected _

theorem moreItems (separator : Mark) (h : Plain p) (bound : Nat) : Plain (moreItems separator p bound) := by
  induction bound with
  | zero => exact pure []
  | succ bound ih => exact (accept _).bind fun b => ite (h.bind fun _ => ih.bind fun _ => pure _) (pure []) b

theorem commaList (h : Plain p) : Plain (commaList p) :=
  h.bind fun _ => get fun _ => (moreItems _ h _).bind fun _ => pure _

theorem path : Plain path :=
  (identifier _).bind fun _ => get fun _ => (moreItems _ (identifier _) _).bind fun _ => pure _

theorem literal? : Plain literal? := by
  unfold Parser.literal?
  refine get fun s => ?_
  cases s.current.kind with
  | keyword k =>
    cases k with
    | true | false | null => exact pure _
    | _ => exact pure none
  | json text =>
    dsimp only
    cases Json.parseText text with
    | ok v => exact pure _
    | error reason => exact malformed fun _ => rfl
  | _ => exact pure _

theorem convertible : Plain convertible := by
  unfold Parser.convertible
  refine get fun s => ?_
  cases s.current.kind with
  | string | integer | float => exact advance.bind fun _ => pure _
  | _ => exact unexpected _

theorem conversion : Plain conversion :=
  (expect _).bind fun _ => convertible.bind fun _ => (expect _).bind fun _ => path.bind fun _ =>
    (expect _).bind fun _ => pure _

theorem value : Plain value :=
  get fun s => by
    split
    · exact advance.bind fun _ => pure _
    · exact advance.bind fun _ => conversion
    · refine literal?.bind fun o => ?_
      cases o with
      | none => exact unexpected _
      | some l => exact advance.bind fun _ => pure _

theorem members : Plain members :=
  (accept _).bind fun b => ite ((commaList value).bind fun _ => (expect _).bind fun _ => pure _) value b

theorem comparison : Plain comparison :=
  path.bind fun _ => (accept _).bind fun b => ite (members.bind fun _ => pure _)
    ((accept _).bind fun b => ite (value.bind fun _ => (expectKeyword _).bind fun _ => value.bind fun _ => pure _)
      (get fun s => by
        split
        · exact advance.bind fun _ => value.bind fun _ => pure _
        · exact unexpected _) b) b

theorem sortKey : Plain sortKey :=
  path.bind fun _ => (accept _).bind fun b => ite (pure _) ((accept _).bind fun _ => pure _) b

theorem orderClause : Plain orderClause :=
  (accept _).bind fun b => ite ((expectKeyword _).bind fun _ => commaList sortKey) (pure []) b

theorem countClause (k : Keyword) : Plain (countClause k) :=
  (accept _).bind fun b => ite ((count k).bind fun _ => pure _) (pure none) b

theorem selection : Plain selection :=
  (accept _).bind fun b => ite (pure []) ((isKind _).bind fun b => ite (pure []) (commaList path) b) b

theorem assignment : Plain assignment := path.bind fun _ => (expect _).bind fun _ => value.bind fun _ => pure _

theorem keys (op : Operation) : Plain (keys op) :=
  advance.bind fun _ => (isKind _).bind fun b => ite (query _) (commaList value) b

theorem insertQuery : Plain insertQuery :=
  advance.bind fun _ => (identifier _).bind fun _ => (expect _).bind fun _ => (commaList assignment).bind fun _ =>
    (expect _).bind fun _ => pure _

end Plain

end Parser

end EntityQuery
