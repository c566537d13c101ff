import VisualRules.Card.Basic
import VisualRules.Card.Setting
import VisualRules.Feature

namespace VisualRules

structure Color where
  red : Int32
  green : Int32
  blue : Int32
  deriving DecidableEq, Repr

def Color.values (color : Color) : List Int32 := [color.red, color.green, color.blue]

def Color.isSet (color : Color) : Bool := color.values.any (· ≠ 0)

inductive Action
  | move (left right : Int32)
  | topColor (color : Color)
  | bottomColor (color : Color)
  | sound (notes : Vector Note soundNotes)
  /-- Starts the timer with a period in milliseconds. -/
  | timer (period : Int32)
  /-- Writes state bits. -/
  | setState (slots : Vector StateSlot stateSlots)
  deriving DecidableEq, Repr

namespace Action

/-- Some value of the card is not its neutral one. A sound card has no neutral values. -/
def isSet : Action → Bool
  | move left right => left ≠ 0 || right ≠ 0
  | topColor color | bottomColor color => color.isSet
  | sound _ => true
  | timer period => period ≠ 0
  | setState slots => slots.toList.any (· ≠ .any)

/-- The support code that the action relies on. -/
def feature? : Action → Option Feature
  | sound _ => some .sound
  | _ => none

/-- The action writes state, or could. -/
def isSetState : Action → Bool
  | setState _ => true
  | _ => false

end Action

end VisualRules
