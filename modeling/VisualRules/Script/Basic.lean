import VisualRules.Feature

namespace VisualRules

/-- The number of line breaks in a text. -/
def lineCount (text : String) : Nat := text.toList.count '\n'

def total (counts : List Nat) : Nat := counts.foldr (· + ·) 0

structure Script where
  segments : List String
  /-- For each rule, the position of its segment. -/
  rulePositions : List Nat
  features : FeatureSet
  deriving DecidableEq, Repr

namespace Script

/-- The script as the robot gets it. -/
def text (script : Script) : String := String.join script.segments

def isEmpty (script : Script) : Bool := script.segments.isEmpty

def segmentOfRule? (script : Script) (rule : Nat) : Option Nat := script.rulePositions[rule]?

/-- The line of the text, counted from zero, where the code of a rule begins. -/
def lineOfRule? (script : Script) (rule : Nat) : Option Nat := do
  let segment ← script.segmentOfRule? rule
  return total ((script.segments.take segment).map lineCount)

/-- The lines that the code of a rule covers: the first, and the first after them. -/
def linesOfRule? (script : Script) (rule : Nat) : Option (Nat × Nat) := do
  let start ← script.lineOfRule? rule
  let text ← script.segments[← script.segmentOfRule? rule]?
  return (start, start + lineCount text)

/-- The bytes of the text that the code of a rule covers: the first, and the first after them. -/
def bytesOfRule? (script : Script) (rule : Nat) : Option (Nat × Nat) := do
  let segment ← script.segmentOfRule? rule
  let start := total ((script.segments.take segment).map String.utf8ByteSize)
  let text ← script.segments[segment]?
  return (start, start + text.utf8ByteSize)

end Script

end VisualRules
