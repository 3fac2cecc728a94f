/-
  EntityQuery.Proofs.ReadingBack — what is loaded is read back.

  (1) Texts. A query for a whole collection ends in any name that is an identifier, and
  one for a key in any string that has no double quote.

  (2) Checks. A check of a query without parameters runs it on the loaded store.

  (3) Reading back. A collection is answered as its list in the document, and a key of
  the bucket as its object, each the same but for the order of fields
  (`loading_reads_back`).
-/

import EntityQuery.Command.Check
import EntityQuery.Proofs.Execution
import EntityQuery.Proofs.Json.RoundTrip
import EntityQuery.Proofs.Lexing.Spelling
import EntityQuery.Proofs.Loading
import EntityQuery.Proofs.Selection

namespace EntityQuery

/-! ## (1) Texts -/

open Token (Spells IsIdentifier)

/-- Everything in a collection. -/
def selectAll (name : String) : SelectPhrase := ⟨.star, name, none, none, none, none⟩

theorem selectAll_writtenAs {name : String} (h : IsIdentifier name) :
    (QueryPhrase.select (selectAll name)).WrittenAs ("select * from " ++ name) := by
  have hfront : Spells "select * from" [.keyword .select, .mark .star, .keyword .from] :=
    Token.spells_of_tokens (by decide +kernel)
  exact hfront.spaced h

theorem get_writtenAs {key : String} (h : '"' ∉ key.toList) :
    (QueryPhrase.get ⟨.literal (.string key), []⟩).WrittenAs ("get \"" ++ key ++ "\"") := by
  have hfront : Spells "get" [.keyword .get] := Token.spells_of_tokens (by decide +kernel)
  have htext : "get \"" ++ key ++ "\"" = "get" ++ " " ++ ("\"" ++ key ++ "\"") := by
    rw [← String.toList_inj]
    simp
  rw [htext]
  exact hfront.spaced (Token.spells_string h)

/-! ## (2) Checks -/

namespace Command

/-- A query on a document, with neither names to map nor bindings. -/
def Check.ofDocument (query : String) (family : Family) (data : String) : Check :=
  ⟨query, family, some data, none, [], false⟩

theorem get_all (family : Family) : Dialects.all.get family = .ok (.ofFamily family) := by
  cases family <;> rfl

/-- A query that reads, resolves and runs is what a check answers. -/
theorem Check.run_ofDocument {query data : String} {family : Family} {p : QueryPhrase} {r : Query Value} {s : Store}
    {es : List Entity} (hwritten : p.WrittenAs query) (hallowed : family.allows p.query.operation = true)
    (hdata : loadData data = .ok s)
    (hresolve : (Bindings.ofQuery p.query).resolve p.query .identity (Dialect.ofFamily family).convert = .ok r)
    (hfound : (Store.manager.execute r s).1 = .ok es) :
    (Check.ofDocument query family data).run = .ok (.found (.array (es.map (·.toJson)))) := by
  have hread : (Dialect.ofFamily family).read query = .ok p.query := Dialect.read_of_writtenAs hwritten hallowed
  have hprepare : (Dialect.ofFamily family).prepare query .identity =
      .ok (.ofQuery p.query .identity (Dialect.ofFamily family).convert) := Dialect.prepare_eq_ok.mpr ⟨_, hread, rfl⟩
  have hstatement : (Statement.ofQuery p.query .identity (Dialect.ofFamily family).convert).resolve = .ok r :=
    (Statement.resolve_bound p.query .identity _ []).trans hresolve
  have hlist : ((Statement.ofQuery p.query .identity (Dialect.ofFamily family).convert).list Store.manager s).1 = .ok es := by
    rw [Statement.list, hstatement]
    exact hfound
  simp only [Check.run, Check.ofDocument, get_all]
  show ((loadData data).bind fun store => _) = _
  rw [hdata]
  show (((Dialect.ofFamily family).prepare query .identity).bind _).mapError CommandError.query = _
  rw [hprepare]
  show (((Statement.list _ Store.manager s).1.map _).mapError CommandError.query) = _
  rw [hlist]
  rfl

end Command

/-- Everything in a collection, as it runs. -/
def everything (name : String) : SelectQuery Value := ⟨name, [], none, [], none, none⟩

theorem Store.select_everything (s : Store) (name : String) : s.select (everything name) = .ok (s.entities name) := by
  refine Store.select_eq_ok.mpr ⟨.inr nofun, ?_⟩
  have hall : s.matching name none = s.entities name := List.filter_eq_self.mpr fun _ _ => rfl
  show _ = (SortKey.sort [] (s.matching name none)).map id
  rw [SortKey.sort_nil, List.map_id, hall]

/-! ## (3) Reading back -/

namespace Json

theorem wholesFit_fieldsUnder {fields : List (String × Json)} (h : (Json.object fields).wholesFit = true) (name : String) :
    (Json.object (fieldsUnder fields name)).wholesFit = true := by
  unfold Json.fieldsUnder
  split
  · next entries hentries => exact fieldsFit_iff.mp h _ (field?_eq_some hentries)
  · rfl

/-- What is loaded under a name and written again is what was there. -/
theorem alike_items {items : List Json} (hregular : (Json.array items).Regular)
    (hfit : (Json.array items).wholesFit = true) (hobjects : ∀ v ∈ items, v.IsObject) (name : String) :
    (Json.array items).Alike (.array ((items.map (Command.entityAt name)).map (·.toJson))) := by
  have hwritten : (items.map (Command.entityAt name)).map (·.toJson) = items.map fun v => (Value.ofJson v).toJson := by
    rw [List.map_map]
    refine List.map_congr_left fun v hv => ?_
    obtain ⟨fields, rfl⟩ := hobjects v hv
    rfl
  have hback := hregular.alike_toJson hfit
  rw [Value.ofJson, Value.toJson, Value.ofJsonItems_eq_map, Value.toJsonItems_eq_map, List.map_map] at hback
  rw [hwritten]
  exact hback

end Json

open Command

/-- A text is loaded exactly when it is a data document. Of a document whose whole
    numbers fit in 64 bits, selecting everything from a collection finds its list, if its
    name is an identifier, and getting a key of the bucket finds its object, if there is
    no double quote in it. -/
theorem loading_reads_back (text : String) :
    ((∃ s, loadData text = .ok s) ↔ ∃ fields, Json.parseText text = .ok (.object fields) ∧ Json.IsDocument fields) ∧
    ∀ fields, Json.parseText text = .ok (.object fields) → Json.IsDocument fields →
      (Json.object fields).wholesFit = true →
      (∀ name items, (name, .array items) ∈ Json.fieldsUnder fields "collections" → IsIdentifier name →
        ∃ found, (Check.ofDocument ("select * from " ++ name) .document text).run = .ok (.found found) ∧
          (Json.array items).Alike found) ∧
      (∀ key v, (key, v) ∈ Json.fieldsUnder fields "bucket" → '"' ∉ key.toList →
        ∃ found, (Check.ofDocument ("get \"" ++ key ++ "\"") .keyValue text).run = .ok (.found found) ∧
          (Json.array [v]).Alike found) := by
  refine ⟨⟨fun ⟨s, hs⟩ => ?_, fun ⟨fields, hparse, hdocument⟩ => ⟨_, loadData_eq_ok.mpr ⟨fields, hparse, hdocument, rfl⟩⟩⟩, ?_⟩
  · obtain ⟨fields, hparse, hdocument, -⟩ := loadData_eq_ok.mp hs
    exact ⟨fields, hparse, hdocument⟩
  intro fields hparse hdocument hfit
  have hload : loadData text = .ok (loaded fields) := loadData_eq_ok.mpr ⟨fields, hparse, hdocument, rfl⟩
  have hregular : (Json.object fields).Regular := Json.regular_of_parseText hparse
  obtain ⟨⟨-, hobjects⟩, -, hlists⟩ := isDocument_iff.mp hdocument
  constructor
  · intro name items hin hname
    have hsection := hregular.fieldsUnder "collections"
    obtain ⟨_, heq, hitems⟩ := hlists _ hin
    obtain rfl := Json.array.inj heq
    have hfound : (Store.manager.execute (.select (everything name)) (loaded fields)).1 =
        .ok (items.map (entityAt name)) := by
      show (loaded fields).select (everything name) = _
      rw [Store.select_everything, entities_loaded hsection.names_differ hin]
      rfl
    refine ⟨_, Check.run_ofDocument (selectAll_writtenAs hname) rfl hload rfl hfound, ?_⟩
    exact Json.alike_items (hsection.of_mem_object hin)
      (Json.fieldsFit_iff.mp (Json.wholesFit_fieldsUnder hfit "collections") _ hin) hitems name
  · intro key v hin hkey
    have hsection := hregular.fieldsUnder "bucket"
    have hfound : (Store.manager.execute (.get [.string key]) (loaded fields)).1 = .ok [entityAt key v] := by
      show Except.ok ((loaded fields).get [.string key]) = _
      rw [get_loaded hsection.names_differ hin]
    refine ⟨_, Check.run_ofDocument (get_writtenAs hkey) rfl hload rfl hfound, ?_⟩
    have hv : v.wholesFit = true := Json.fieldsFit_iff.mp (Json.wholesFit_fieldsUnder hfit "bucket") _ hin
    exact Json.alike_items (.array (List.forall_mem_singleton.mpr (hsection.of_mem_object hin)))
      (Json.itemsFit_iff.mpr (List.forall_mem_singleton.mpr hv)) (List.forall_mem_singleton.mpr (hobjects _ hin)) key

/-- One object in the bucket, and two in a collection, the first with its fields in no
    particular order. -/
def peopleText : String :=
  "\x7b\"bucket\": \x7b\"Diana\": \x7b\"name\": \"Diana\"\x7d\x7d, \"collections\": \x7b\"Person\": [" ++
  "\x7b\"name\": \"Ada\", \"age\": 36, \"marks\": [1.5, null]\x7d, \x7b\"name\": \"Bob\"\x7d]\x7d\x7d"

/-- The names in both sections of a document, and whether its numbers fit. -/
def sectionNames : Json → List String × List String × Bool
  | .object fields => ((Json.fieldsUnder fields "bucket").map (·.1), (Json.fieldsUnder fields "collections").map (·.1),
      (Json.object fields).wholesFit)
  | _ => ([], [], false)

theorem loading_reads_back_people :
    ∃ fields items v, Json.parseText peopleText = .ok (.object fields) ∧ Json.IsDocument fields ∧
      (Json.object fields).wholesFit = true ∧ ("Person", .array items) ∈ Json.fieldsUnder fields "collections" ∧
      ("Diana", v) ∈ Json.fieldsUnder fields "bucket" ∧ IsIdentifier "Person" ∧ '"' ∉ "Diana".toList ∧
      (∃ found, (Check.ofDocument "select * from Person" .document peopleText).run = .ok (.found found) ∧
        (Json.array items).Alike found) ∧
      ∃ found, (Check.ofDocument "get \"Diana\"" .keyValue peopleText).run = .ok (.found found) ∧
        (Json.array [v]).Alike found := by
  have hloads : (loadData peopleText).toOption.isSome = true := by decide +kernel
  have hnames : (Json.parseText peopleText).toOption.map sectionNames = some (["Diana"], ["Person"], true) := by
    decide +kernel
  have hidentifier : IsIdentifier "Person" := Token.spells_of_tokens (by decide +kernel)
  have hquote : '"' ∉ "Diana".toList := by decide
  obtain ⟨haccepted, hback⟩ := loading_reads_back peopleText
  obtain ⟨s, hs⟩ := Option.isSome_iff_exists.mp hloads
  obtain ⟨fields, hparse, hdocument⟩ := haccepted.mp ⟨s, except_toOption_eq_some.mp hs⟩
  rw [hparse] at hnames
  obtain ⟨hbucket, hsections⟩ := Prod.mk.inj (Option.some.inj hnames)
  obtain ⟨hcollections, hfit⟩ := Prod.mk.inj hsections
  obtain ⟨⟨_, v⟩, hdiana, rfl⟩ := List.mem_map.mp (hbucket ▸ List.mem_singleton.mpr rfl :
    "Diana" ∈ (Json.fieldsUnder fields "bucket").map (·.1))
  obtain ⟨⟨_, w⟩, hperson, rfl⟩ := List.mem_map.mp (hcollections ▸ List.mem_singleton.mpr rfl :
    "Person" ∈ (Json.fieldsUnder fields "collections").map (·.1))
  obtain ⟨-, -, hlists⟩ := isDocument_iff.mp hdocument
  obtain ⟨items, rfl, -⟩ := hlists _ hperson
  obtain ⟨hselect, hget⟩ := hback fields hparse hdocument hfit
  exact ⟨fields, items, v, hparse, hdocument, hfit, hperson, hdiana, hidentifier, hquote,
    hselect "Person" items hperson hidentifier, hget "Diana" v hdiana hquote⟩

example : ((Check.ofDocument "select * from Person" .document peopleText).run.toOption.map fun
    | .found v => v.toText
    | .syntaxValid => "") =
    some "[\x7b\"age\":36,\"marks\":[1.5,null],\"name\":\"Ada\"\x7d,\x7b\"name\":\"Bob\"\x7d]" := by decide +kernel

end EntityQuery
