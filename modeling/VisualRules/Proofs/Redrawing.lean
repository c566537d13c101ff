import VisualRules.Card.Drawing
import VisualRules.Proofs.Refusal

/-!
# Cards that are drawn are read back

The card of an event, a state filter or an action is read as what it was drawn for, as long as the
angle is a step of the scale and the notes are in their tables. So a program can be drawn anew from
what its cards mean: odd values become the usual ones, and the script stays the same.
-/

namespace VisualRules

/-- The angle of a tilt is a step of the scale. Other events have no angle. -/
def Event.InScale : Event → Prop
  | tilt _ angle => -4 ≤ angle ∧ angle ≤ 4
  | _ => True

/-- The rule with its cards drawn anew. -/
def Reaction.toRule (reaction : Reaction) : Rule where
  event := reaction.event.toCard
  stateFilter := reaction.stateFilter.map StateFilter.toCard
  actions := reaction.actions.map Action.toCard
  isAdvanced := reaction.isAdvanced

/-- The program with every card drawn anew from what it means, if every card means something. -/
def Program.redrawn (program : Program) : Except CompileError Program := do
  let reactions ← program.reactions
  return ⟨reactions.map Reaction.toRule, program.advancedMode⟩

namespace Note

theorem toInt_code (note : Note) :
    note.code.toInt = note.pitch.toNat + 256 * note.duration.toNat := by
  have hpitch := note.pitch.toNat_lt
  have hduration := note.duration.toNat_lt
  rw [code, Int32.toInt_ofNat_of_lt (by omega), Int.natCast_add, Int.natCast_mul]
  rfl

private theorem ofCode_code (note : Note) : ofCode note.code = note := by
  have hpitch := note.pitch.toNat_lt
  have hduration := note.duration.toNat_lt
  have hlow : (note.code.toInt % 256).toNat = note.pitch.toNat := by rw [toInt_code]; omega
  have hhigh : (note.code.toInt / 256 % 256).toNat = note.duration.toNat := by
    rw [toInt_code]
    omega
  rw [ofCode, hlow, hhigh, UInt8.ofNat_toNat, UInt8.ofNat_toNat]

private theorem isCode_code_iff (note : Note) : IsCode note.code ↔ note.InTables := by
  rw [isCode_iff, ofCode_code]

end Note

namespace Card

theorem kindFor_ofKind {role : Role} {kind : Kind} (h : kind.role = role) (values : List Int32) :
    (ofKind kind values).kindFor role = .ok kind :=
  kindFor_of_isOf ⟨h, rfl, h⟩

private theorem exactly_map {α : Type} {n : Nat} {xs : Vector α n} {f : α → Int32} (kind : Kind) :
    (ofKind kind (xs.toList.map f)).exactly n kind = .ok (xs.map f) :=
  exactly_of_toList (Vector.toList_map ..).symm kind

private theorem sensorBand_values {n : Nat} (band : SensorBand n) (kind : Kind) :
    (ofKind kind band.values).sensorBand n kind = .ok band := by
  have hvalues : (ofKind kind band.values).values =
      (band.sensors.map SensorTest.code ++ #v[band.low, band.high]).toList := by
    rw [Vector.toList_append, Vector.toList_map]
    rfl
  have hsensors : (Vector.ofFn fun i : Fin n => SensorTest.ofCode
      (band.sensors.map SensorTest.code ++ #v[band.low, band.high])[i.val]) = band.sensors := by
    apply Vector.ext
    intro i hi
    rw [Vector.getElem_ofFn, Vector.getElem_append_left hi, Vector.getElem_map,
      SensorTest.ofCode_code]
  rw [sensorBand, exactly_of_toList hvalues, ok_bind, hsensors, pure_eq_ok]
  simp

private theorem notes_map_code {notes : Vector Note soundNotes}
    (h : ∀ note ∈ notes.toList, note.InTables) :
    Card.notes (notes.map Note.code) = .ok notes := by
  have hcodes : ∀ value ∈ (notes.map Note.code).toList, Note.IsCode value := by
    rw [Vector.toList_map, List.forall_mem_map]
    exact fun note hnote => note.isCode_code_iff.mpr (h note hnote)
  rw [Card.notes, find?_outside_eq_none hcodes]
  simp [Function.comp_def, Note.ofCode_code]

end Card

namespace Event

variable {event : Event}

private theorem toEvent_toCard (h : event.InScale) : event.toCard.toEvent = .ok event := by
  cases event with
  | buttons pressed =>
    have hdown : ∀ down : Bool, decide ((if down then (1 : Int32) else 0) > 0) = down := by decide
    rw [Card.toEvent, toCard, Card.kindFor_ofKind (by rfl), ok_bind]
    simp [Function.comp_def, hdown, Card.exactly_map]
  | proximity band | groundProximity band =>
    rw [Card.toEvent, toCard, Card.kindFor_ofKind (by rfl), ok_bind]
    simp only [Card.sensorBand_values, ok_bind, pure_eq_ok]
  | tap | clap | timeout =>
    rw [Card.toEvent, toCard, Card.kindFor_ofKind (by rfl), ok_bind]
    rfl
  | tilt mode angle =>
    rw [Card.toEvent, toCard, Card.kindFor_ofKind (by rfl), ok_bind]
    refine (Card.exactly_bind_pair (by rfl) _).trans ?_
    exact Card.tilt_eq_ok.mpr ⟨mode, rfl, h.1, h.2, rfl⟩

private theorem toEvent_toCard_of_angle {mode : TiltMode} {angle : Int32}
    (h : ¬(-4 ≤ angle ∧ angle ≤ 4)) :
    (tilt mode angle).toCard.toEvent = .error (.tiltAngleOutOfRange angle) := by
  have hmode : mode.code ∈ [0, 1, 2] := by cases mode <;> decide
  rw [Card.toEvent, toCard, Card.kindFor_ofKind (by rfl), ok_bind]
  exact (Card.exactly_bind_pair (by rfl) _).trans (Card.tilt_of_angle hmode h)

private theorem inScale_of_toEvent {card : Card} (h : card.toEvent = .ok event) :
    event.InScale := by
  cases event with
  | tilt mode angle => exact (Card.values_of_toEvent_tilt h).2
  | _ => trivial

end Event

private theorem StateFilter.toFilter_toCard (filter : StateFilter) :
    filter.toCard.toFilter = .ok filter := by
  rw [Card.toFilter, toCard, Card.kindFor_ofKind (by rfl), ok_bind]
  simp [Function.comp_def, Card.exactly_map]

namespace Action

variable {action : Action}

private theorem toAction_toCard (h : action.InTables) : action.toCard.toAction = .ok action := by
  cases action with
  | move left right =>
    have hvalues : (Card.ofKind .move [left, right]).values = #v[left, right].toList := rfl
    rw [Card.toAction, toCard, Card.kindFor_ofKind (by rfl), ok_bind]
    simp only [Card.exactly_of_toList hvalues, ok_bind]
    rfl
  | topColor color | bottomColor color =>
    have hvalues (kind : Kind) : (Card.ofKind kind color.values).values =
        #v[color.red, color.green, color.blue].toList := rfl
    rw [Card.toAction, toCard, Card.kindFor_ofKind (by rfl), ok_bind]
    simp only [Card.exactly_of_toList (hvalues _), ok_bind]
    rfl
  | sound notes =>
    rw [Card.toAction, toCard, Card.kindFor_ofKind (by rfl), ok_bind]
    simp only [Card.exactly_map, ok_bind, Card.notes_map_code h, pure_eq_ok]
  | timer period =>
    have hvalues : (Card.ofKind .timer [period]).values = #v[period].toList := rfl
    rw [Card.toAction, toCard, Card.kindFor_ofKind (by rfl), ok_bind]
    simp only [Card.exactly_of_toList hvalues, ok_bind]
    rfl
  | setState slots =>
    rw [Card.toAction, toCard, Card.kindFor_ofKind (by rfl), ok_bind]
    simp [Function.comp_def, Card.exactly_map]

private theorem toAction_toCard_of_note {notes : Vector Note soundNotes} {before after : List Note}
    {note : Note} (hnotes : notes.toList = before ++ note :: after)
    (hbefore : ∀ earlier ∈ before, earlier.InTables) (h : ¬note.InTables) :
    (sound notes).toCard.toAction = .error (.noteOutOfRange before.length note.code) := by
  have hcodes : (notes.map Note.code).toList =
      before.map Note.code ++ note.code :: after.map Note.code := by
    rw [Vector.toList_map, hnotes, List.map_append, List.map_cons]
  have hearlier : ∀ value ∈ before.map Note.code, Note.IsCode value :=
    List.forall_mem_map.mpr fun earlier hearlier =>
      earlier.isCode_code_iff.mpr (hbefore earlier hearlier)
  rw [Card.toAction, toCard, Card.kindFor_ofKind (by rfl), ok_bind]
  simp only [Card.exactly_map, ok_bind]
  rw [Card.notes_of_first hcodes hearlier (mt note.isCode_code_iff.mp h), List.length_map]
  rfl

end Action

namespace Rule

variable {rule : Rule} {reaction : Reaction}

/-- A rule that was read is read in the same way after it is drawn anew. -/
theorem read_toRule (h : rule.read = .ok reaction) : reaction.toRule.read = .ok reaction := by
  obtain ⟨hlength, hevent, _, hactions, _⟩ := read_eq_ok.mp h
  have hcards := mapM_eq_ok.mp hactions
  refine read_eq_ok.mpr ⟨?_, Event.toEvent_toCard (Event.inScale_of_toEvent hevent), ?_, ?_, rfl⟩
  · rw [Reaction.toRule, List.length_map, ← hcards.length_eq]
    exact hlength
  · rw [Reaction.toRule]
    cases reaction.stateFilter with
    | none => exact .none
    | some filter => exact .some filter.toFilter_toCard
  · rw [Reaction.toRule, mapM_eq_ok, List.forall₂_map_left_iff, List.forall₂_same]
    intro action haction
    exact Action.toAction_toCard (inTables_of_read h action haction)

private theorem toReaction_toRule {advancedMode : Bool}
    (h : rule.toReaction advancedMode = .ok reaction) :
    reaction.toRule.toReaction advancedMode = .ok reaction := by
  obtain ⟨hread, hstate⟩ := toReaction_eq_ok.mp h
  exact toReaction_eq_ok.mpr ⟨read_toRule hread, hstate⟩

end Rule

namespace Program

variable {program : Program}

private theorem reactions_redrawn {reactions : List Reaction}
    (h : program.reactions = .ok reactions) :
    (mk (reactions.map Reaction.toRule) program.advancedMode).reactions = .ok reactions := by
  rw [reactions_eq_ok] at h ⊢
  rw [List.forall₂_map_left_iff, List.forall₂_same]
  intro reaction hreaction
  obtain ⟨rule, _, hrule⟩ := exists_of_mem_forall₂ h hreaction
  exact Rule.toReaction_toRule hrule

private theorem exists_redrawn {script : Script} (h : program.compile = .ok script) :
    ∃ redrawn, program.redrawn = .ok redrawn ∧ redrawn.compile = .ok script := by
  obtain ⟨reactions, assembly, hread, hassembly, rfl⟩ := compile_eq_ok.mp h
  refine ⟨⟨reactions.map Reaction.toRule, program.advancedMode⟩, ?_, ?_⟩
  · rw [redrawn, hread]
    rfl
  · exact compile_eq_ok.mpr ⟨reactions, assembly, reactions_redrawn hread, hassembly, rfl⟩

end Program

/-- What is drawn is read back, and only an angle or a note out of range is refused. So a program
that compiles can be drawn anew, card by card, and compiles to the same script. -/
theorem drawn_cards_read_back :
    (∀ event : Event, event.InScale → event.toCard.toEvent = .ok event) ∧
    (∀ (mode : TiltMode) (angle : Int32), ¬(-4 ≤ angle ∧ angle ≤ 4) →
      (Event.tilt mode angle).toCard.toEvent = .error (.tiltAngleOutOfRange angle)) ∧
    (∀ filter : StateFilter, filter.toCard.toFilter = .ok filter) ∧
    (∀ action : Action, action.InTables → action.toCard.toAction = .ok action) ∧
    (∀ (notes : Vector Note soundNotes) (before after : List Note) (note : Note),
      notes.toList = before ++ note :: after → (∀ earlier ∈ before, earlier.InTables) →
        ¬note.InTables → (Action.sound notes).toCard.toAction =
          .error (.noteOutOfRange before.length note.code)) ∧
    ∀ (program : Program) (script : Script), program.compile = .ok script →
      ∃ redrawn, program.redrawn = .ok redrawn ∧ redrawn.compile = .ok script := by
  refine ⟨?_, ?_, StateFilter.toFilter_toCard, ?_, ?_, ?_⟩
  · exact fun event => Event.toEvent_toCard
  · exact fun mode angle => Event.toEvent_toCard_of_angle
  · exact fun action => Action.toAction_toCard
  · exact fun notes before after note => Action.toAction_toCard_of_note
  · exact fun program script => Program.exists_redrawn

end VisualRules
