import VisualRules.Proofs.Documents
import VisualRules.Proofs.RecordForms

/-!
# Documents up to their presentation

Programs, rules and cards are records, and the records within them can be written in all their
forms. Loading ignores the form on every level and ignores nothing else: two documents of one
program differ only in the forms of their records.
-/

namespace VisualRules

open Relation (EqvGen)

/-- A role is written as a string or as an object with its tag as the only name. -/
inductive Role.Restyle : Json → Json → Prop
  | object (tag : String) : Restyle (.ofText tag) (.obj [(some tag, .null)])

namespace Card

def schema : Json.Schema where
  names := fieldNames
  defaults := [("values", .arr [])]
  nodup := by decide
  mem_names := by decide

def Change : String → Json → Json → Prop
  | "role" => Role.Restyle
  | _ => fun _ _ => False

def Restyle : Json → Json → Prop := Json.Restyle schema Change

end Card

namespace Rule

def schema : Json.Schema where
  names := fieldNames
  defaults := [("state_filter", .null), ("actions", .arr []), ("is_advanced", .bool false)]
  nodup := by decide
  mem_names := by decide

def Change : String → Json → Json → Prop
  | "event" | "state_filter" => Card.Restyle
  | "actions" => Json.RestyleItem Card.Restyle
  | _ => fun _ _ => False

def Restyle : Json → Json → Prop := Json.Restyle schema Change

end Rule

namespace Program

def schema : Json.Schema where
  names := fieldNames
  defaults := [("rules", .arr []), ("advanced_mode", .bool false)]
  nodup := by decide
  mem_names := by decide

def Change : String → Json → Json → Prop
  | "rules" => Json.RestyleItem Rule.Restyle
  | _ => fun _ _ => False

def Restyle : Json → Json → Prop := Json.Restyle schema Change

end Program

inductive Card.Faulty : Json → Prop
  | malformed {document : Json} (malformed : document.Malformed fieldNames ["role", "kind"] []) :
    Faulty document
  | role {document role : Json} (gives : document.Gives fieldNames "role" role)
    (wrong : ∀ known : Role, role ≠ .ofText known.tag ∧ role ≠ .obj [(some known.tag, .null)]) :
    Faulty document
  | value {document value : Json} {values : List Json}
    (gives : document.Gives fieldNames "values" (.arr values)) (mem : value ∈ values)
    (wrong : ∀ number : Int32, value ≠ .int number.toInt) : Faulty document

inductive Rule.Faulty : Json → Prop
  | malformed {document : Json}
    (malformed : document.Malformed fieldNames ["event"] ["state_filter"]) : Faulty document
  | event {document card : Json} (gives : document.Gives fieldNames "event" card)
    (faulty : Card.Faulty card) : Faulty document
  | stateFilter {document card : Json} (gives : document.Gives fieldNames "state_filter" card)
    (filter : card ≠ .null) (faulty : Card.Faulty card) : Faulty document
  | action {document card : Json} {cards : List Json}
    (gives : document.Gives fieldNames "actions" (.arr cards)) (mem : card ∈ cards)
    (faulty : Card.Faulty card) : Faulty document

inductive Program.Faulty : Json → Prop
  | malformed {document : Json} (malformed : document.Malformed fieldNames [] []) : Faulty document
  | rule {document rule : Json} {rules : List Json}
    (gives : document.Gives fieldNames "rules" (.arr rules)) (mem : rule ∈ rules)
    (faulty : Rule.Faulty rule) : Faulty document

section Invariance

private theorem Json.Restyle.nullable?_congr {schema : Schema}
    {change : String → Json → Json → Prop} {α : Type} {read : Json → Option α} {value value' : Json}
    (h : Restyle schema change value value') (hread : read value = read value') :
    nullable? read value = nullable? read value' := by
  cases h <;> exact congrArg (Option.map some) hread

private theorem Card.ofJson?_restyle {document document' : Json} (h : Restyle document document') :
    ofJson? document = ofJson? document' := by
  refine (Json.Restyle.sameRecord h).bind_congr fun fields fields' same => ?_
  have hrole : Json.field? fields "role" Role.ofJson? = Json.field? fields' "role" Role.ofJson? :=
    Json.field?_congr (same "role") (by simp [schema]) (by rintro _ _ ⟨tag⟩; rfl)
  have hkind : Json.field? fields "kind" Json.text? = Json.field? fields' "kind" Json.text? :=
    Json.field?_congr (same "kind") (by simp [schema]) (by rintro _ _ ⟨⟩)
  have hvalues : Json.fieldD? fields "values" [] (Json.list? Json.int32?) =
      Json.fieldD? fields' "values" [] (Json.list? Json.int32?) :=
    Json.fieldD?_congr (same "values") (by simp [schema, Json.list?]) (by rintro _ _ ⟨⟩)
  rw [hrole, hkind, hvalues]

private theorem Rule.ofJson?_restyle {document document' : Json} (h : Restyle document document') :
    ofJson? document = ofJson? document' := by
  refine (Json.Restyle.sameRecord h).bind_congr fun fields fields' same => ?_
  have hevent : Json.field? fields "event" Card.ofJson? =
      Json.field? fields' "event" Card.ofJson? :=
    Json.field?_congr (same "event") (by simp [schema]) fun _ _ => Card.ofJson?_restyle
  have hfilter : Json.fieldD? fields "state_filter" none (Json.nullable? Card.ofJson?) =
      Json.fieldD? fields' "state_filter" none (Json.nullable? Card.ofJson?) := by
    refine Json.fieldD?_congr (same "state_filter") (by simp [schema, Json.nullable?]) ?_
    intro _ _ changed
    exact Json.Restyle.nullable?_congr changed (Card.ofJson?_restyle changed)
  have hactions : Json.fieldD? fields "actions" [] (Json.list? Card.ofJson?) =
      Json.fieldD? fields' "actions" [] (Json.list? Card.ofJson?) := by
    refine Json.fieldD?_congr (same "actions") (by simp [schema, Json.list?]) ?_
    intro _ _ changed
    exact Json.list?_congr changed fun _ _ => Card.ofJson?_restyle
  have hadvanced : Json.fieldD? fields "is_advanced" false Json.bool? =
      Json.fieldD? fields' "is_advanced" false Json.bool? :=
    Json.fieldD?_congr (same "is_advanced") (by simp [schema, Json.bool?]) (by rintro _ _ ⟨⟩)
  rw [hevent, hfilter, hactions, hadvanced]

private theorem Program.ofJson?_restyle {document document' : Json}
    (h : Restyle document document') :
    ofJson? document = ofJson? document' := by
  refine (Json.Restyle.sameRecord h).bind_congr fun fields fields' same => ?_
  have hrules : Json.fieldD? fields "rules" [] (Json.list? Rule.ofJson?) =
      Json.fieldD? fields' "rules" [] (Json.list? Rule.ofJson?) := by
    refine Json.fieldD?_congr (same "rules") (by simp [schema, Json.list?]) ?_
    intro _ _ changed
    exact Json.list?_congr changed fun _ _ => Rule.ofJson?_restyle
  have hmode : Json.fieldD? fields "advanced_mode" false Json.bool? =
      Json.fieldD? fields' "advanced_mode" false Json.bool? :=
    Json.fieldD?_congr (same "advanced_mode") (by simp [schema, Json.bool?]) (by rintro _ _ ⟨⟩)
  rw [hrules, hmode]

/-- Changes of the form, in any number and combination, keep the program. -/
theorem Program.ofJson?_eqvGen {document document' : Json} (h : EqvGen Restyle document document') :
    ofJson? document = ofJson? document' := by
  induction h with
  | rel _ _ changed => exact ofJson?_restyle changed
  | refl => rfl
  | symm _ _ _ ih => exact ih.symm
  | trans _ _ _ _ _ ih ih' => exact ih.trans ih'

end Invariance

private theorem Card.exists_of_ofJson? {document : Json} {card : Card}
    (h : ofJson? document = some card) :
    ∃ fields, document.record? fieldNames = some fields ∧
      Json.field? fields "role" Role.ofJson? = some card.role ∧
      Json.field? fields "kind" Json.text? = some card.kind ∧
      Json.fieldD? fields "values" [] (Json.list? Json.int32?) = some card.values := by
  obtain ⟨fields, hfields, h⟩ := Option.bind_eq_some_iff.mp h
  obtain ⟨role, hrole, h⟩ := Option.bind_eq_some_iff.mp h
  obtain ⟨kind, hkind, h⟩ := Option.bind_eq_some_iff.mp h
  obtain ⟨values, hvalues, hcard⟩ := Option.bind_eq_some_iff.mp h
  cases hcard
  exact ⟨fields, hfields, hrole, hkind, hvalues⟩

private theorem Rule.exists_of_ofJson? {document : Json} {rule : Rule}
    (h : ofJson? document = some rule) :
    ∃ fields, document.record? fieldNames = some fields ∧
      Json.field? fields "event" Card.ofJson? = some rule.event ∧
      Json.fieldD? fields "state_filter" none (Json.nullable? Card.ofJson?) =
        some rule.stateFilter ∧
      Json.fieldD? fields "actions" [] (Json.list? Card.ofJson?) = some rule.actions ∧
      Json.fieldD? fields "is_advanced" false Json.bool? = some rule.isAdvanced := by
  obtain ⟨fields, hfields, h⟩ := Option.bind_eq_some_iff.mp h
  obtain ⟨event, hevent, h⟩ := Option.bind_eq_some_iff.mp h
  obtain ⟨filter, hfilter, h⟩ := Option.bind_eq_some_iff.mp h
  obtain ⟨actions, hactions, h⟩ := Option.bind_eq_some_iff.mp h
  obtain ⟨advanced, hadvanced, hrule⟩ := Option.bind_eq_some_iff.mp h
  cases hrule
  exact ⟨fields, hfields, hevent, hfilter, hactions, hadvanced⟩

private theorem Program.exists_of_ofJson? {document : Json} {program : Program}
    (h : ofJson? document = some program) :
    ∃ fields, document.record? fieldNames = some fields ∧
      Json.fieldD? fields "rules" [] (Json.list? Rule.ofJson?) = some program.rules ∧
      Json.fieldD? fields "advanced_mode" false Json.bool? = some program.advancedMode := by
  obtain ⟨fields, hfields, h⟩ := Option.bind_eq_some_iff.mp h
  obtain ⟨rules, hrules, h⟩ := Option.bind_eq_some_iff.mp h
  obtain ⟨mode, hmode, hprogram⟩ := Option.bind_eq_some_iff.mp h
  cases hprogram
  exact ⟨fields, hfields, hrules, hmode⟩

section Exactness

private theorem Role.ofJson?_eq_some_iff {document : Json} {role : Role} :
    ofJson? document = some role ↔
    document = .ofText role.tag ∨ document = .obj [(some role.tag, .null)] := by
  have htag {tag : String} : ofTag? tag = some role ↔ tag = role.tag := by
    constructor
    · intro h
      simpa [eq_comm] using List.find?_some h
    · rintro rfl
      exact ofTag?_tag role
  constructor
  · intro h
    unfold ofJson? at h
    split at h
    next tag => exact .inl (by rw [htag.mp h, Json.ofText])
    next tag => exact .inr (by rw [htag.mp h])
    next => cases h
  · rintro (rfl | rfl)
    · exact ofTag?_tag role
    · exact ofTag?_tag role

private theorem Role.eqvGen_toJson {document : Json} {role : Role}
    (h : ofJson? document = some role) :
    EqvGen Restyle document role.toJson := by
  obtain rfl | rfl := ofJson?_eq_some_iff.mp h
  · exact .refl _
  · exact .symm _ _ (.rel _ _ (.object role.tag))

private theorem Json.eq_of_list?_int32? {document : Json} {values : List Int32}
    (h : list? int32? document = some values) :
    document = .arr (values.map fun value => .int value.toInt) := by
  obtain ⟨items, rfl, hitems⟩ := list?_eq_some_iff.mp h
  simp only [int32?_eq_some_iff] at hitems
  have hsame : items = values.map fun value => .int value.toInt := by
    rw [← List.forall₂_eq_eq_eq, List.forall₂_map_right_iff]
    exact hitems
  rw [hsame]

private theorem Card.eqvGen_toJson {document : Json} {card : Card}
    (h : ofJson? document = some card) :
    EqvGen Restyle document card.toJson := by
  obtain ⟨fields, hfields, hrole, hkind, hvalues⟩ := exists_of_ofJson? h
  have role_fills : Json.Fills schema Change fields ("role", card.role.toJson) :=
    Json.fills_of_field? Role.toJson hrole fun _ => Role.eqvGen_toJson
  have kind_fills : Json.Fills schema Change fields ("kind", .ofText card.kind) :=
    Json.fills_of_field? Json.ofText hkind fun value hread => by
      rw [Json.text?_eq_some_iff.mp hread]
      exact .refl _
  have values_fills : Json.Fills schema Change fields
      ("values", .arr (card.values.map fun value => .int value.toInt)) :=
    Json.fills_of_fieldD? (fun values => .arr (values.map fun value => .int value.toInt)) hvalues
      (by simp [schema]) fun value hread => by
        rw [Json.eq_of_list?_int32? hread]
        exact .refl _
  refine Json.eqvGen_ofFields hfields rfl ?_
  simp only [List.forall_mem_cons]
  exact ⟨role_fills, kind_fills, values_fills, by simp⟩

private theorem Rule.eqvGen_toJson {document : Json} {rule : Rule}
    (h : ofJson? document = some rule) :
    EqvGen Restyle document rule.toJson := by
  obtain ⟨fields, hfields, hevent, hfilter, hactions, hadvanced⟩ := exists_of_ofJson? h
  have event_fills : Json.Fills schema Change fields ("event", rule.event.toJson) :=
    Json.fills_of_field? Card.toJson hevent fun _ => Card.eqvGen_toJson
  have filter_fills : Json.Fills schema Change fields
      ("state_filter", rule.stateFilter.elim .null Card.toJson) := by
    refine Json.fills_of_fieldD? (fun filter => filter.elim .null Card.toJson) hfilter ?_
      fun value hread => ?_
    · simp [schema]
    · obtain ⟨rfl, hnone⟩ | ⟨_, card, hcard, hsome⟩ := Json.nullable?_eq_some_iff.mp hread
      · rw [hnone]
        exact .refl _
      · rw [hsome]
        exact Card.eqvGen_toJson hcard
  have actions_fills : Json.Fills schema Change fields
      ("actions", .arr (rule.actions.map Card.toJson)) := by
    refine Json.fills_of_fieldD? (fun actions => .arr (actions.map Card.toJson)) hactions ?_
      fun value hread => ?_
    · simp [schema]
    · obtain ⟨items, rfl, hitems⟩ := Json.list?_eq_some_iff.mp hread
      exact Json.eqvGen_arr (hitems.imp fun _ _ => Card.eqvGen_toJson) []
  have advanced_fills : Json.Fills schema Change fields ("is_advanced", .bool rule.isAdvanced) :=
    Json.fills_of_fieldD? Json.bool hadvanced (by simp [schema]) fun value hread => by
      rw [Json.bool?_eq_some_iff.mp hread]
      exact .refl _
  refine Json.eqvGen_ofFields hfields rfl ?_
  simp only [List.forall_mem_cons]
  exact ⟨event_fills, filter_fills, actions_fills, advanced_fills, by simp⟩

/-- Every document of a program differs from the one it is saved as in form only. -/
theorem Program.eqvGen_toJson {document : Json} {program : Program}
    (h : ofJson? document = some program) : EqvGen Restyle document program.toJson := by
  obtain ⟨fields, hfields, hrules, hmode⟩ := exists_of_ofJson? h
  have rules_fills : Json.Fills schema Change fields
      ("rules", .arr (program.rules.map Rule.toJson)) := by
    refine Json.fills_of_fieldD? (fun rules => .arr (rules.map Rule.toJson)) hrules ?_
      fun value hread => ?_
    · simp [schema]
    · obtain ⟨items, rfl, hitems⟩ := Json.list?_eq_some_iff.mp hread
      exact Json.eqvGen_arr (hitems.imp fun _ _ => Rule.eqvGen_toJson) []
  have mode_fills : Json.Fills schema Change fields ("advanced_mode", .bool program.advancedMode) :=
    Json.fills_of_fieldD? Json.bool hmode (by simp [schema]) fun value hread => by
      rw [Json.bool?_eq_some_iff.mp hread]
      exact .refl _
  refine Json.eqvGen_ofFields hfields rfl ?_
  simp only [List.forall_mem_cons]
  exact ⟨rules_fills, mode_fills, by simp⟩

end Exactness

section Refusal

private theorem Card.not_faulty {document : Json} {card : Card} (h : ofJson? document = some card) :
    ¬Faulty document := by
  obtain ⟨fields, hfields, hrole, hkind, hvalues⟩ := exists_of_ofJson? h
  rintro (⟨malformed⟩ | ⟨gives, wrong⟩ | ⟨gives, mem, wrong⟩)
  · obtain ⟨name, hname, hnone⟩ | ⟨name, hname, _, hnull⟩ :=
      malformed.of_record? schema.nodup hfields
    · simp only [List.mem_cons, List.not_mem_nil, or_false] at hname
      obtain rfl | rfl := hname
      · simp [Json.field?, hnone] at hrole
      · simp [Json.field?, hnone] at hkind
    · simp only [schema, fieldNames, List.mem_cons, List.not_mem_nil, or_false] at hname
      obtain rfl | rfl | rfl := hname
      · simp [Json.field?, hnull, Role.ofJson?] at hrole
      · simp [Json.field?, hnull, Json.text?] at hkind
      · simp [Json.fieldD?, hnull, Json.list?] at hvalues
  · rw [Json.field?_of_gives schema.nodup hfields gives, Role.ofJson?_eq_some_iff] at hrole
    exact hrole.elim (wrong card.role).1 (wrong card.role).2
  · rw [Json.fieldD?_of_gives schema.nodup hfields gives] at hvalues
    obtain ⟨number, hnumber⟩ := Json.exists_of_mem_of_list? hvalues mem
    exact wrong number (Json.int32?_eq_some_iff.mp hnumber)

private theorem Rule.not_faulty {document : Json} {rule : Rule} (h : ofJson? document = some rule) :
    ¬Faulty document := by
  obtain ⟨fields, hfields, hevent, hfilter, hactions, hadvanced⟩ := exists_of_ofJson? h
  rintro (⟨malformed⟩ | ⟨gives, faulty⟩ | ⟨gives, filter, faulty⟩ | ⟨gives, mem, faulty⟩)
  · obtain ⟨name, hname, hnone⟩ | ⟨name, hname, hstrict, hnull⟩ :=
      malformed.of_record? schema.nodup hfields
    · rw [List.mem_singleton] at hname
      subst hname
      simp [Json.field?, hnone] at hevent
    · simp only [schema, fieldNames, List.mem_cons, List.not_mem_nil, or_false] at hname
      obtain rfl | rfl | rfl | rfl := hname
      · simp [Json.field?, hnull, Card.ofJson?, Json.record?] at hevent
      · simp at hstrict
      · simp [Json.fieldD?, hnull, Json.list?] at hactions
      · simp [Json.fieldD?, hnull, Json.bool?] at hadvanced
  · rw [Json.field?_of_gives schema.nodup hfields gives] at hevent
    exact Card.not_faulty hevent faulty
  · rw [Json.fieldD?_of_gives schema.nodup hfields gives, Json.nullable?_eq_some_iff] at hfilter
    obtain ⟨hnull, _⟩ | ⟨_, card, hcard, _⟩ := hfilter
    · exact filter hnull
    · exact Card.not_faulty hcard faulty
  · rw [Json.fieldD?_of_gives schema.nodup hfields gives] at hactions
    obtain ⟨card, hcard⟩ := Json.exists_of_mem_of_list? hactions mem
    exact Card.not_faulty hcard faulty

private theorem Program.not_faulty {document : Json} {program : Program}
    (h : ofJson? document = some program) : ¬Faulty document := by
  obtain ⟨fields, hfields, hrules, hmode⟩ := exists_of_ofJson? h
  rintro (⟨malformed⟩ | ⟨gives, mem, faulty⟩)
  · obtain ⟨name, hname, _⟩ | ⟨name, hname, _, hnull⟩ :=
      malformed.of_record? schema.nodup hfields
    · cases hname
    · simp only [schema, fieldNames, List.mem_cons, List.not_mem_nil, or_false] at hname
      obtain rfl | rfl := hname
      · simp [Json.fieldD?, hnull, Json.list?] at hrules
      · simp [Json.fieldD?, hnull, Json.bool?] at hmode
  · rw [Json.fieldD?_of_gives schema.nodup hfields gives] at hrules
    obtain ⟨rule, hrule⟩ := Json.exists_of_mem_of_list? hrules mem
    exact Rule.not_faulty hrule faulty

end Refusal

namespace Program

private theorem load?_eq_of_spells {text : String} {document : Json}
    (h : document.Spells text.toList) :
    load? text = ofJson? document := by
  rw [load?, Json.parse?_eq_some_iff.mpr h]
  rfl

private theorem load?_eq_some_iff {text : String} {program : Program} : load? text = some program ↔
    ∃ document : Json, document.Spells text.toList ∧ ofJson? document = some program := by
  constructor
  · intro h
    obtain ⟨document, hparse, hprogram⟩ := Option.bind_eq_some_iff.mp h
    exact ⟨document, Json.parse?_eq_some_iff.mp hparse, hprogram⟩
  · rintro ⟨document, hspells, hprogram⟩
    exact (load?_eq_of_spells hspells).trans hprogram

/-- A text is loaded as a program exactly if it spells a document that differs in form only from
the one the program is saved as. A change of the form does not change what is loaded, and no
document is loaded in which a record is wrong. -/
structure IgnoresPresentation : Prop where
  loads_iff : ∀ (text : String) (program : Program), load? text = some program ↔
    ∃ document : Json, document.Spells text.toList ∧ EqvGen Restyle document program.toJson
  same_program : ∀ (text text' : String) (program : Program) (document document' : Json),
    load? text = some program → document.Spells text.toList → document'.Spells text'.toList →
      EqvGen Restyle document document' → load? text' = some program
  refused : ∀ (text : String) (document : Json), document.Spells text.toList →
    Faulty document → load? text = none

/-- Loading ignores how a document is presented, and nothing else. -/
theorem load_ignores_presentation : IgnoresPresentation := by
  constructor
  case loads_iff =>
    intro text program
    rw [load?_eq_some_iff]
    refine exists_congr fun document => and_congr_right fun _ => ⟨eqvGen_toJson, fun hsame => ?_⟩
    rw [ofJson?_eqvGen hsame, ofJson?_toJson]
  case same_program =>
    intro text text' program document document' hload hspells hspells' hsame
    rw [load?_eq_of_spells hspells', ← ofJson?_eqvGen hsame, ← load?_eq_of_spells hspells, hload]
  case refused =>
    intro text document hspells hfaulty
    rw [load?_eq_of_spells hspells, Option.eq_none_iff_forall_ne_some]
    exact fun program hprogram => not_faulty hprogram hfaulty

/-- Lists for objects, an object for a role, a field that nobody asks for, and no defaults. -/
example : load? ("\x7b\"note\": [-0.5e3, \"\\ud800\"], " ++
    "\"rules\": [[[\x7b\"event\": null\x7d, \"tap\"]]]\x7d") =
      some ⟨[Rule.ofEvent (.ofKind .tap [])], false⟩ := by decide +kernel

end Program

end VisualRules
