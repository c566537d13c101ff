import VisualRules.Event
import VisualRules.Script.Line

namespace VisualRules

/-- A variable of the robot that a test can read. -/
inductive Variable
  | button (button : Button)
  | horizontal (sensor : Nat)
  | ground (sensor : Nat)
  | angle
  | state (slot : Nat)
  deriving DecidableEq, Repr

def Variable.text : Variable → String
  | button which => "button." ++ which.name
  | horizontal sensor => s!"prox.horizontal[{sensor}]"
  | ground sensor => s!"prox.ground.delta[{sensor}]"
  | angle => "angle"
  | state slot => s!"state[{slot}]"

inductive Comparison
  | less
  | greater
  | equal
  deriving DecidableEq, Repr

def Comparison.text : Comparison → String
  | less => "<"
  | greater => ">"
  | equal => "=="

def Comparison.holds (reading bound : Int) : Comparison → Bool
  | less => reading < bound
  | greater => reading > bound
  | equal => reading = bound

structure Clause where
  operand : Variable
  comparison : Comparison
  bound : Int32
  deriving DecidableEq, Repr

namespace Clause

def text (clause : Clause) : String :=
  clause.operand.text ++ " " ++ clause.comparison.text ++ " " ++ decimal clause.bound

def holds (readings : Variable → Int) (clause : Clause) : Bool :=
  clause.comparison.holds (readings clause.operand) clause.bound.toInt

def testOf (clauses : List Clause) : String := String.intercalate " and " (clauses.map text)

end Clause

namespace SensorBand

variable {n : Nat}

def clause? (band : SensorBand n) (ofSensor : Nat → Variable) (test : SensorTest) (sensor : Nat) :
    Option Clause :=
  match test with
  | .any => none
  | .below => some ⟨ofSensor sensor, .less, band.low⟩
  | .above => some ⟨ofSensor sensor, .greater, band.high⟩

def clauses (band : SensorBand n) (ofSensor : Nat → Variable) : List Clause :=
  band.sensors.toList.zipIdx.filterMap fun (test, sensor) => band.clause? ofSensor test sensor

end SensorBand

/-- What the angle reads at the outermost step of a tilt card. -/
def tiltScale : Int32 := 16384

/-- The reach of a tilt card to either side, times `tiltResolution`. -/
def tiltHalfBand : Int32 := 8192

/-- The angle lies in a band around a step. The bands of the outermost steps are open on the outer
side. -/
def tiltClauses (target : Int32) : List Clause :=
  let middle := target * tiltScale / tiltResolution
  let reach := tiltHalfBand / tiltResolution
  (if target = -tiltResolution then [] else [⟨.angle, .greater, middle - reach⟩]) ++
    (if target = tiltResolution then [] else [⟨.angle, .less, middle + reach⟩])

namespace Event

/-- What the readings have to be, beyond that the physical event happened. In roll mode the angle is
counted the other way. -/
def clauses : Event → List Clause
  | buttons pressed =>
    ((Button.all.zip pressed.toList).filter (·.2)).map fun (button, _) => ⟨.button button, .equal, 1⟩
  | proximity band => band.clauses .horizontal
  | groundProximity band => band.clauses .ground
  | tap | clap | timeout => []
  | tilt .tap _ => []
  | tilt .roll angle => tiltClauses (-angle)
  | tilt .pitch angle => tiltClauses angle

def test (event : Event) : String := Clause.testOf event.clauses

def preparation : Event → List Line
  | tilt .pitch _ => [⟨1, "call math.atan2(angle, acc[1], acc[2])"⟩]
  | tilt .roll _ => [⟨1, "call math.atan2(angle, acc[0], acc[2])"⟩]
  | _ => []

end Event

namespace StateFilter

def clauses (filter : StateFilter) : List Clause :=
  filter.slots.toList.zipIdx.filterMap fun (slot, index) =>
    slot.bit?.map fun bit => ⟨.state index, .equal, bit⟩

/-- The filter as a test of its own. -/
def test (filter : StateFilter) : String := Clause.testOf filter.clauses

/-- The filter as it continues another test. -/
def conjunction (filter : StateFilter) : String :=
  String.join (filter.clauses.map fun clause => " and " ++ clause.text)

end StateFilter

end VisualRules
