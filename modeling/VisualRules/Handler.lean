import VisualRules.Feature
import VisualRules.Script.Line

namespace VisualRules

/-- The handler of one physical event. -/
inductive Handler
  | buttons
  | proximity
  | tap
  | tilt
  | clap
  | timeout
  deriving DecidableEq, Repr

namespace Handler

def all : List Handler := [buttons, proximity, tap, tilt, clap, timeout]

def name : Handler → String
  | buttons => "button"
  | proximity => "prox"
  | tap => "tap"
  | tilt => "acc"
  | clap => "clap"
  | timeout => "timeout"

def trigger : Handler → String
  | buttons => "buttons"
  | proximity => "prox"
  | tap => "tap"
  | tilt => "acc"
  | clap => "mic"
  | timeout => "timer0"

/-- What opens the handler. The timer is stopped first, so that a timeout fires once. -/
def header (handler : Handler) : List Line :=
  [.blank, ⟨0, "onevent " ++ handler.trigger⟩] ++
    if handler = timeout then [⟨1, "timer.period[0] = 0"⟩] else []

def feature? : Handler → Option Feature
  | buttons | proximity | tap => none
  | tilt => some .tiltAngle
  | clap => some .microphone
  | timeout => some .timer

theorem mem_all (handler : Handler) : handler ∈ all := by cases handler <;> decide

end Handler

/-- What closes an advanced handler: the next state becomes the current one and is displayed. -/
def stateSync : List Line :=
  [.blank, ⟨1, "call math.copy(state, new_state)"⟩, ⟨1, "callsub display_state"⟩]

end VisualRules
