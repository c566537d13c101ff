import VisualRules.Json.Basic
import VisualRules.Proofs.JsonGrammar

namespace VisualRules.Json

/-- A value without a number that is no integer and without a string that has no text. -/
inductive Plain : Json → Prop
  | null : Plain .null
  | bool (value : Bool) : Plain (.bool value)
  | int (value : Int) : Plain (.int value)
  | text (text : String) : Plain (.ofText text)
  | arr (items : List Json) (plain : ∀ item ∈ items, Plain item) : Plain (.arr items)
  | obj (fields : List (Option String × Json)) (named : ∀ field ∈ fields, field.1.isSome = true)
    (plain : ∀ field ∈ fields, Plain field.2) : Plain (.obj fields)

private theorem writtenItems_eq (items : List Json) :
    writtenItems items = commaSeparated (items.map written) := by
  induction items with
  | nil => rfl
  | cons item items ih =>
    cases items with
    | nil => simp [writtenItems]
    | cons next items =>
      rw [List.map_cons, commaSeparated_cons (by simp), ← ih, writtenItems]
      simp

private theorem writtenFields_eq (fields : List (Option String × Json)) :
    writtenFields fields =
      commaSeparated (fields.map fun field => quote field.1 ++ ':' :: written field.2) := by
  induction fields with
  | nil => rfl
  | cons field fields ih =>
    cases fields with
    | nil => simp [writtenFields]
    | cons next fields =>
      rw [List.map_cons, commaSeparated_cons (by simp), ← ih, writtenFields]
      simp

private theorem spellsName_quote (name : String) : SpellsName (some name) (quote (some name)) :=
  ⟨[], _, [], isBlanks_nil, spellsText_flatMap_escape name, isBlanks_nil, rfl⟩

/-- A value of nothing but integers, texts, flags, lists and named fields is spelled as it is
written. -/
theorem Plain.spells_written {value : Json} (h : Plain value) : Spells value (written value) := by
  induction h with
  | null => exact .null
  | bool value => cases value <;> exact .bool _
  | int value => exact .number (spellsNumber_toString value)
  | text text => exact .str (spellsText_flatMap_escape text)
  | arr items plain ih =>
    rw [written, writtenItems_eq]
    cases items with
    | nil => exact .emptyArr isBlanks_nil
    | cons item items =>
      let parts := (item :: items).map fun item => (item, written item)
      have hitems : parts.map Prod.fst = item :: items := by simp [parts, Function.comp_def]
      have hwritten : parts.map Prod.snd = (item :: items).map written := by
        simp [parts, Function.comp_def]
      have hparts : ∀ part ∈ parts, Spells part.1 part.2 := List.forall_mem_map.mpr ih
      have hspells := Spells.arr (by simp [parts]) hparts
      rwa [hitems, hwritten] at hspells
  | obj fields named plain ih =>
    rw [written, writtenFields_eq]
    cases fields with
    | nil => exact .emptyObj isBlanks_nil
    | cons field fields =>
      let parts := (field :: fields).map fun field => (field, quote field.1, written field.2)
      have hfields : parts.map Prod.fst = field :: fields := by simp [parts, Function.comp_def]
      have hwritten : (parts.map fun part => part.2.1 ++ ':' :: part.2.2) =
          (field :: fields).map fun field => quote field.1 ++ ':' :: written field.2 := by
        simp [parts, Function.comp_def]
      have hnames : ∀ part ∈ parts, SpellsName part.1.1 part.2.1 := by
        refine List.forall_mem_map.mpr fun field hfield => ?_
        obtain ⟨name, hname⟩ := Option.isSome_iff_exists.mp (named field hfield)
        dsimp only
        rw [hname]
        exact spellsName_quote name
      have hvalues : ∀ part ∈ parts, Spells part.1.2 part.2.2 := List.forall_mem_map.mpr ih
      have hspells := Spells.obj (by simp [parts]) hnames hvalues
      rwa [hfields, hwritten] at hspells

/-- A written value is parsed as that value. -/
theorem parse?_render {value : Json} (h : Plain value) : parse? (render value) = some value := by
  rw [parse?_eq_some_iff, render, String.toList_ofList]
  exact h.spells_written

end VisualRules.Json
