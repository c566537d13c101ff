namespace VisualRules

/-- The place that a card takes in a rule. -/
inductive Role
  | event
  | stateFilter
  | action
  deriving DecidableEq, Repr

namespace Role

def name : Role → String
  | event => "event"
  | stateFilter => "state filter"
  | action => "action"

/-- The role as a saved document writes it. -/
def tag : Role → String
  | event => "event"
  | stateFilter => "state_filter"
  | action => "action"

def all : List Role := [event, stateFilter, action]

def ofTag? (tag : String) : Option Role := all.find? fun role => role.tag = tag

@[simp] theorem ofTag?_tag (role : Role) : ofTag? role.tag = some role := by
  cases role <;> decide

end Role

/-- Horizontal proximity sensors: five at the front, two at the back. -/
def proximitySensors : Nat := 7

def groundSensors : Nat := 2

/-- Persistent state bits of a program in advanced mode. -/
def stateSlots : Nat := 4

def soundNotes : Nat := 6

/-- The kinds of card that have a meaning. -/
inductive Kind
  | buttons
  | proximity
  | groundProximity
  | tap
  | clap
  | timeout
  | accelerometer
  | stateFilter
  | move
  | topColor
  | bottomColor
  | sound
  | timer
  | setState
  deriving DecidableEq, Repr

namespace Kind

def all : List Kind :=
  [buttons, proximity, groundProximity, tap, clap, timeout, accelerometer, stateFilter, move,
    topColor, bottomColor, sound, timer, setState]

/-- The name of the kind on cards and in saved documents. -/
def name : Kind → String
  | buttons => "button"
  | proximity => "prox"
  | groundProximity => "proxground"
  | tap => "tap"
  | clap => "clap"
  | timeout => "timeout"
  | accelerometer => "acc"
  | stateFilter => "statefilter"
  | move => "move"
  | topColor => "colortop"
  | bottomColor => "colorbottom"
  | sound => "sound"
  | timer => "timer"
  | setState => "setstate"

def ofName? (name : String) : Option Kind := all.find? fun kind => kind.name = name

def role : Kind → Role
  | buttons | proximity | groundProximity | tap | clap | timeout | accelerometer => .event
  | stateFilter => .stateFilter
  | move | topColor | bottomColor | sound | timer | setState => .action

/-- The number of values on a well-shaped card of this kind. Both proximity cards carry a low and
a high threshold after their sensors. -/
def valueCount : Kind → Nat
  | buttons => 5
  | proximity => proximitySensors + 2
  | groundProximity => groundSensors + 2
  | tap | clap | timeout => 0
  | accelerometer => 2
  | stateFilter | setState => stateSlots
  | move => 2
  | topColor | bottomColor => 3
  | sound => soundNotes
  | timer => 1

theorem ofName?_name (kind : Kind) : ofName? kind.name = some kind := by cases kind <;> decide

end Kind

/-- One visual card. -/
structure Card where
  role : Role
  kind : String
  values : List Int32
  deriving DecidableEq, Repr

namespace Card

def ofKind (kind : Kind) (values : List Int32) : Card := ⟨kind.role, kind.name, values⟩

/-- The kind, if its name belongs to the vocabulary. -/
def knownKind? (card : Card) : Option Kind := Kind.ofName? card.kind

def value? (card : Card) (index : Nat) : Option Int32 := card.values[index]?

end Card

end VisualRules
