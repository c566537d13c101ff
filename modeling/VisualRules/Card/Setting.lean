namespace VisualRules

inductive SensorTest
  | any
  /-- The reading is below the low threshold. -/
  | below
  /-- The reading is above the high threshold. -/
  | above
  deriving DecidableEq, Repr

namespace SensorTest

def code : SensorTest → Int32
  | any => 0
  | below => 1
  | above => 2

/-- A number that is no code leaves the sensor untested. -/
def ofCode (value : Int32) : SensorTest :=
  if value = 1 then below else if value = 2 then above else any

@[simp] theorem ofCode_code (test : SensorTest) : ofCode test.code = test := by
  cases test <;> decide

end SensorTest

/-- One persistent state bit, as a filter requires it or as a write leaves it. -/
inductive StateSlot
  /-- A filter does not care, a write leaves the bit unchanged. -/
  | any
  | on
  | off
  deriving DecidableEq, Repr

namespace StateSlot

def code : StateSlot → Int32
  | any => 0
  | on => 1
  | off => 2

/-- A number that is no code leaves the bit alone. -/
def ofCode (value : Int32) : StateSlot :=
  if value = 1 then on else if value = 2 then off else any

def bit? : StateSlot → Option Int32
  | any => none
  | on => some 1
  | off => some 0

@[simp] theorem ofCode_code (slot : StateSlot) : ofCode slot.code = slot := by
  cases slot <;> decide

end StateSlot

/-- Discrete tilt steps on each side of level. -/
def tiltResolution : Int32 := 4

inductive TiltMode
  | tap
  | roll
  | pitch
  deriving DecidableEq, Repr

namespace TiltMode

def code : TiltMode → Int32
  | tap => 0
  | roll => 1
  | pitch => 2

/-- Unlike the other settings, a mode has no default. -/
def ofCode? (value : Int32) : Option TiltMode :=
  if value = 0 then some tap else if value = 1 then some roll
  else if value = 2 then some pitch else none

@[simp] theorem ofCode?_code (mode : TiltMode) : ofCode? mode.code = some mode := by
  cases mode <;> decide

end TiltMode

/-- A note of the sound card: a position in each of the two tables below. -/
structure Note where
  pitch : UInt8
  duration : UInt8
  deriving DecidableEq, Repr

namespace Note

/-- Frequencies in hertz. -/
def frequencies : List Int32 := [262, 311, 370, 440, 524]

/-- Durations in sixtieths of a second; `-1` is a rest. -/
def durations : List Int32 := [-1, 8, 15]

/-- The pitch is the low byte of the number on the card, the duration the byte above it. -/
def code (note : Note) : Int32 := Int32.ofNat (note.pitch.toNat + 256 * note.duration.toNat)

/-- The two low bytes of a number. What stands above them is not looked at. -/
def ofCode (value : Int32) : Note where
  pitch := UInt8.ofNat (value.toInt % 256).toNat
  duration := UInt8.ofNat (value.toInt / 256 % 256).toNat

def InTables (note : Note) : Prop :=
  note.pitch.toNat < frequencies.length ∧ note.duration.toNat < durations.length

instance (note : Note) : Decidable note.InTables := by unfold InTables; infer_instance

end Note

end VisualRules
