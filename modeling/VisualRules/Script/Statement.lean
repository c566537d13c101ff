import VisualRules.Action
import VisualRules.Violation

namespace VisualRules

namespace Note

def fault (note : Note) : Fault := .noteOutsideTables note.pitch note.duration

def frequency (note : Note) : Except Fault Int32 :=
  match frequencies[note.pitch.toNat]? with
  | some frequency => .ok frequency
  | none => .error note.fault

/-- The duration in sixtieths of a second. -/
def ticks (note : Note) : Except Fault Int32 :=
  match durations[note.duration.toNat]? with
  | some ticks => .ok ticks
  | none => .error note.fault

end Note

def listed (values : List Int32) : String := String.intercalate ", " (values.map decimal)

def Color.arguments (color : Color) : String :=
  String.intercalate "," (color.values.map decimal)

/-- Statements that write the state bits named by the slots, in their order. -/
def stateWrites (slots : List StateSlot) : List String :=
  slots.zipIdx.filterMap fun (slot, index) =>
    slot.bit?.map fun bit => s!"new_state[{index}] = {decimal bit}"

/-- The statements of an action. A sound card queues its notes and plays the first. -/
def Action.statements : Action → Except Fault (List String)
  | move left right =>
    return ["motor.left.target = " ++ decimal left, "motor.right.target = " ++ decimal right]
  | topColor color => return [s!"call leds.top({color.arguments})"]
  | bottomColor color =>
    return [s!"call leds.bottom.left({color.arguments})",
      s!"call leds.bottom.right({color.arguments})"]
  | sound notes => do
    let frequencies ← notes.toList.mapM Note.frequency
    let durations ← notes.toList.mapM Note.ticks
    return [s!"call math.copy(notes, [{listed frequencies}])",
      s!"call math.copy(durations, [{listed durations}])",
      "call sound.freq(notes[0], durations[0])",
      "note_index = 1"]
  | timer period => return ["timer.period[0] = " ++ decimal period]
  | setState slots => return stateWrites slots.toList

/-- The lines of an action, all indented alike. -/
def Action.lines (action : Action) (depth : Nat) : Except Fault (List Line) := do
  return (← action.statements).map (⟨depth, ·⟩)

end VisualRules
