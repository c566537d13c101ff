import VisualRules.Program.Document
import VisualRules.Proofs.JsonValue

namespace VisualRules

namespace Json

variable {α : Type}

private theorem mapM_map_eq_some {β : Type} {read : β → Option α} {write : α → β}
    (h : ∀ x, read (write x) = some x) (xs : List α) : (xs.map write).mapM read = some xs := by
  induction xs with
  | nil => rfl
  | cons x xs ih =>
    rw [List.map_cons, List.mapM_cons, h x, ih]
    rfl

private theorem list?_arr_map {read : Json → Option α} {write : α → Json}
    (h : ∀ x, read (write x) = some x) (xs : List α) :
    list? read (.arr (xs.map write)) = some xs :=
  mapM_map_eq_some h xs

/-- A record that gives each of its fields once is read with all of them. -/
theorem record?_ofFields {names : List String} (hnames : names.Nodup)
    {fields : List (String × Json)} (h : fields.map Prod.fst = names) :
    record? names (ofFields fields) = some fields := by
  change objectFields? names (fields.map _) = some fields
  rw [objectFields?, mapM_map_eq_some]
  · change (if ((fields.filter _).map Prod.fst).Nodup then _ else none) = some fields
    rw [List.filter_eq_self.mpr, if_pos]
    · rw [h]
      exact hnames
    · intro field hfield
      rw [← h]
      simpa using ⟨field.2, hfield⟩
  · exact fun _ => rfl

private theorem plain_ofFields {fields : List (String × Json)}
    (h : ∀ field ∈ fields, Plain field.2) :
    Plain (ofFields fields) :=
  .obj _ (List.forall_mem_map.mpr fun _ _ => rfl) (List.forall_mem_map.mpr h)

private theorem plain_arr_map {write : α → Json} (h : ∀ x, Plain (write x)) (xs : List α) :
    Plain (.arr (xs.map write)) :=
  .arr _ (List.forall_mem_map.mpr fun x _ => h x)

end Json

private theorem Role.ofJson?_toJson (role : Role) : Role.ofJson? role.toJson = some role := by
  cases role <;> rfl

namespace Card

private theorem ofJson?_toJson (card : Card) : ofJson? card.toJson = some card := by
  have hvalues : Json.list? Json.int32? (.arr (card.values.map fun value => .int value.toInt)) =
      some card.values := Json.list?_arr_map Json.int32?_int card.values
  have hfields : Json.record? fieldNames card.toJson = some _ :=
    Json.record?_ofFields (by decide) rfl
  simp [ofJson?, hfields, Json.field?, Json.fieldD?, List.lookup_cons, Role.ofJson?_toJson,
    Json.ofText, Json.text?, hvalues]

private theorem plain_toJson (card : Card) : card.toJson.Plain := by
  have hvalues : (Json.arr (card.values.map fun value => .int value.toInt)).Plain :=
    Json.plain_arr_map (fun value => .int value.toInt) card.values
  refine Json.plain_ofFields ?_
  simp [Role.toJson, hvalues, Json.Plain.text]

end Card

namespace Rule

private theorem ofJson?_toJson (rule : Rule) : ofJson? rule.toJson = some rule := by
  have hactions : Json.list? Card.ofJson? (.arr (rule.actions.map Card.toJson)) =
      some rule.actions := Json.list?_arr_map Card.ofJson?_toJson rule.actions
  have hfilter : Json.nullable? Card.ofJson? (rule.stateFilter.elim .null Card.toJson) =
      some rule.stateFilter := by
    cases rule.stateFilter with
    | none => rfl
    | some card =>
      have hcard := congrArg (Option.map some) card.ofJson?_toJson
      exact hcard
  have hfields : Json.record? fieldNames rule.toJson = some _ :=
    Json.record?_ofFields (by decide) rfl
  simp [ofJson?, hfields, Json.field?, Json.fieldD?, List.lookup_cons, Card.ofJson?_toJson, hfilter,
    hactions, Json.bool?]

private theorem plain_toJson (rule : Rule) : rule.toJson.Plain := by
  have hfilter : (rule.stateFilter.elim .null Card.toJson).Plain := by
    cases rule.stateFilter with
    | none => exact .null
    | some card => exact card.plain_toJson
  have hactions : (Json.arr (rule.actions.map Card.toJson)).Plain :=
    Json.plain_arr_map Card.plain_toJson rule.actions
  refine Json.plain_ofFields ?_
  simp [Card.plain_toJson, hfilter, hactions, Json.Plain.bool]

end Rule

namespace Program

theorem ofJson?_toJson (program : Program) : ofJson? program.toJson = some program := by
  have hrules : Json.list? Rule.ofJson? (.arr (program.rules.map Rule.toJson)) =
      some program.rules := Json.list?_arr_map Rule.ofJson?_toJson program.rules
  have hfields : Json.record? fieldNames program.toJson = some _ :=
    Json.record?_ofFields (by decide) rfl
  simp [ofJson?, hfields, Json.fieldD?, List.lookup_cons, hrules, Json.bool?]

private theorem plain_toJson (program : Program) : program.toJson.Plain := by
  have hrules : (Json.arr (program.rules.map Rule.toJson)).Plain :=
    Json.plain_arr_map Rule.plain_toJson program.rules
  refine Json.plain_ofFields ?_
  simp [hrules, Json.Plain.bool]

/-- A program is loaded from the text that it is saved as. -/
theorem load_save (program : Program) : load? program.save = some program := by
  rw [load?, save, Json.parse?_render program.plain_toJson]
  exact program.ofJson?_toJson

end Program

end VisualRules
