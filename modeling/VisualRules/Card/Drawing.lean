import VisualRules.Action
import VisualRules.Card.Basic
import VisualRules.Event
import VisualRules.Violation

/-!
# Drawing and reading cards

A card is drawn for an event, a state filter or an action, with the right role, kind and number of
values. In the other direction a card is read as one of them. This is the only place where a
malformed card is found; the checks are on its role, its kind, the number of its values and then on
the values themselves, in that order.
-/

namespace VisualRules

/-- The values of a proximity card: its sensors, then its thresholds. -/
def SensorBand.values {n : Nat} (band : SensorBand n) : List Int32 :=
  band.sensors.toList.map SensorTest.code ++ [band.low, band.high]

def Event.toCard : Event → Card
  | buttons pressed => .ofKind .buttons (pressed.toList.map fun down => if down then 1 else 0)
  | proximity band => .ofKind .proximity band.values
  | groundProximity band => .ofKind .groundProximity band.values
  | tap => .ofKind .tap []
  | clap => .ofKind .clap []
  | timeout => .ofKind .timeout []
  | tilt mode angle => .ofKind .accelerometer [mode.code, angle]

def StateFilter.toCard (filter : StateFilter) : Card :=
  .ofKind .stateFilter (filter.slots.toList.map StateSlot.code)

def Action.toCard : Action → Card
  | move left right => .ofKind .move [left, right]
  | topColor color => .ofKind .topColor color.values
  | bottomColor color => .ofKind .bottomColor color.values
  | sound notes => .ofKind .sound (notes.toList.map Note.code)
  | timer period => .ofKind .timer [period]
  | setState slots => .ofKind .setState (slots.toList.map StateSlot.code)

namespace Card

/-- The kind of a card that is to be read in a role, if it has that role and a kind of the
vocabulary. -/
def kindFor (role : Role) (card : Card) : Except Violation Kind :=
  if card.role ≠ role then .error (.unexpectedRole role card.role)
  else match card.knownKind? with
    | some kind => .ok kind
    | none => .error (.unknownKind role card.kind)

/-- The values of a card of a kind that carries `n` of them. -/
def exactly (n : Nat) (kind : Kind) (card : Card) : Except Violation (Vector Int32 n) :=
  if h : card.values.length = n then .ok ⟨card.values.toArray, by simpa using h⟩
  else .error (.valueCount kind.name n card.values.length)

def sensorBand (n : Nat) (kind : Kind) (card : Card) : Except Violation (SensorBand n) := do
  let values ← card.exactly (n + 2) kind
  return ⟨Vector.ofFn fun i : Fin n => .ofCode values[i.val], values[n], values[n + 1]⟩

/-- The tilt that an accelerometer card asks for. Its angle is checked in every mode. -/
def tilt (mode angle : Int32) : Except Violation Event :=
  match TiltMode.ofCode? mode with
  | none => .error (.unknownTiltMode mode)
  | some mode =>
    if -tiltResolution ≤ angle ∧ angle ≤ tiltResolution then .ok (.tilt mode angle)
    else .error (.tiltAngleOutOfRange angle)

/-- The notes of a sound card. The first number that stands for no note is reported. -/
def notes (values : Vector Int32 soundNotes) : Except Violation (Vector Note soundNotes) :=
  match values.toList.zipIdx.find? fun (value, _) => ¬ (Note.ofCode value).InTables with
  | some (value, slot) => .error (.noteOutOfRange slot value)
  | none => .ok (values.map .ofCode)

def toEvent (card : Card) : Except Violation Event := do
  let kind ← card.kindFor .event
  match kind with
  | .buttons => return .buttons ((← card.exactly 5 kind).map (· > 0))
  | .proximity => return .proximity (← card.sensorBand proximitySensors kind)
  | .groundProximity => return .groundProximity (← card.sensorBand groundSensors kind)
  | .tap => let _ ← card.exactly 0 kind; return .tap
  | .clap => let _ ← card.exactly 0 kind; return .clap
  | .timeout => let _ ← card.exactly 0 kind; return .timeout
  | .accelerometer => let values ← card.exactly 2 kind; tilt values[0] values[1]
  | other => .error (.unknownKind .event other.name)

def toFilter (card : Card) : Except Violation StateFilter := do
  let kind ← card.kindFor .stateFilter
  match kind with
  | .stateFilter => return ⟨(← card.exactly stateSlots kind).map .ofCode⟩
  | other => .error (.unknownKind .stateFilter other.name)

def toAction (card : Card) : Except Violation Action := do
  let kind ← card.kindFor .action
  match kind with
  | .move => let values ← card.exactly 2 kind; return .move values[0] values[1]
  | .topColor => let values ← card.exactly 3 kind; return .topColor ⟨values[0], values[1], values[2]⟩
  | .bottomColor =>
    let values ← card.exactly 3 kind; return .bottomColor ⟨values[0], values[1], values[2]⟩
  | .sound => return .sound (← notes (← card.exactly soundNotes kind))
  | .timer => let values ← card.exactly 1 kind; return .timer values[0]
  | .setState => return .setState ((← card.exactly stateSlots kind).map .ofCode)
  | other => .error (.unknownKind .action other.name)

/-- Some value of the card, thresholds aside, is not its neutral one. A card that cannot be read
has none. -/
def hasNonDefaultValue (card : Card) : Bool :=
  match card.role with
  | .event => match card.toEvent with
    | .ok event => event.isSet
    | .error _ => false
  | .stateFilter => match card.toFilter with
    | .ok filter => filter.isSet
    | .error _ => false
  | .action => match card.toAction with
    | .ok action => action.isSet
    | .error _ => false

end Card

end VisualRules
