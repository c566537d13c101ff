import VisualRules.Card.Basic
import VisualRules.Card.Setting
import VisualRules.Handler

namespace VisualRules

inductive Button
  | forward
  | left
  | backward
  | right
  | center
  deriving DecidableEq, Repr

namespace Button

/-- The order in which a card lists the buttons. -/
def all : List Button := [forward, left, backward, right, center]

def name : Button → String
  | forward => "forward"
  | left => "left"
  | backward => "backward"
  | right => "right"
  | center => "center"

end Button

/-- A test for each of `n` sensors, and the two thresholds that all of them share. -/
structure SensorBand (n : Nat) where
  sensors : Vector SensorTest n
  low : Int32
  high : Int32
  deriving DecidableEq, Repr

/-- Some sensor is tested. The thresholds alone test nothing. -/
def SensorBand.isSet {n : Nat} (band : SensorBand n) : Bool := band.sensors.toList.any (· ≠ .any)

inductive Event
  /-- The buttons that have to be pressed, in the order of `Button.all`. -/
  | buttons (pressed : Vector Bool 5)
  | proximity (band : SensorBand proximitySensors)
  | groundProximity (band : SensorBand groundSensors)
  | tap
  | clap
  | timeout
  /-- The robot is held at an angle, counted in steps up to `tiltResolution` on either side. -/
  | tilt (mode : TiltMode) (angle : Int32)
  deriving DecidableEq, Repr

namespace Event

/-- The card asks for more than that its physical event happens. -/
def isSet : Event → Bool
  | buttons pressed => pressed.toList.any id
  | proximity band => band.isSet
  | groundProximity band => band.isSet
  | tap | clap | timeout => false
  | tilt mode _ => mode ≠ .tap

/-- The handler that the event is dealt with in. Both proximity cards wait for the same event, and
an accelerometer card in tap mode is a tap. -/
def handler : Event → Handler
  | buttons _ => .buttons
  | proximity _ | groundProximity _ => .proximity
  | tap | tilt .tap _ => .tap
  | tilt _ _ => .tilt
  | clap => .clap
  | timeout => .timeout

/-- The thresholds of a proximity card that nobody has moved. -/
def proximityThresholds : Int32 × Int32 := (1000, 2000)

def groundThresholds : Int32 × Int32 := (150, 300)

/-- A proximity event with untouched thresholds. -/
def proximityOf (sensors : Vector SensorTest proximitySensors) : Event :=
  proximity ⟨sensors, proximityThresholds.1, proximityThresholds.2⟩

def groundProximityOf (sensors : Vector SensorTest groundSensors) : Event :=
  groundProximity ⟨sensors, groundThresholds.1, groundThresholds.2⟩

end Event

structure StateFilter where
  slots : Vector StateSlot stateSlots
  deriving DecidableEq, Repr

def StateFilter.isSet (filter : StateFilter) : Bool := filter.slots.toList.any (· ≠ .any)

end VisualRules
