import VisualRules.Card.Basic
import VisualRules.Card.Setting
import VisualRules.Script.Line

/-!
# Violations and faults

Why a card or a rule is refused. The editor only builds cards of the vocabulary, so a violation is
reported as an internal error, together with the rule that it was found in. A fault is an assumption
that the program makes about itself and that fails; it stays visible in the types so that it can be
proved that no input leads there.
-/

namespace VisualRules

/-- The 32 bits of a number in hexadecimal, so that `-1` is `0xffffffff`. -/
def hexadecimal (value : Int32) : String :=
  "0x" ++ String.ofList (Nat.toDigits 16 value.toUInt32.toNat)

inductive Violation
  | unexpectedRole (expected found : Role)
  | unknownKind (role : Role) (kind : String)
  | valueCount (kind : String) (expected found : Nat)
  | unknownTiltMode (mode : Int32)
  | tiltAngleOutOfRange (angle : Int32)
  | noteOutOfRange (slot : Nat) (value : Int32)
  | tooManyActions (count max : Nat)
  /-- A state filter, a state write or an advanced rule in a program in basic mode. -/
  | stateInBasicMode
  deriving DecidableEq, Repr

def Violation.message : Violation → String
  | unexpectedRole expected found => s!"expected {expected.name} block, found {found.name} block"
  | unknownKind role kind => s!"unknown {role.name} block kind `{kind}`"
  | valueCount kind expected found => s!"`{kind}` block carries {found} values, expected {expected}"
  | unknownTiltMode mode => s!"unknown tilt mode {decimal mode}"
  | tiltAngleOutOfRange angle =>
    s!"tilt angle {decimal angle} outside -{decimal tiltResolution}..={decimal tiltResolution}"
  | noteOutOfRange slot value =>
    s!"sound note {slot} has no pitch/duration for value {hexadecimal value}"
  | tooManyActions count max => s!"rule carries {count} actions, at most {max} allowed"
  | stateInBasicMode => "rule uses persistent state but the program is in basic mode"

/-- Why a program has no script: a violation, and the rule that it was found in if that is known. -/
structure CompileError where
  rule? : Option Nat
  violation : Violation
  deriving DecidableEq, Repr

def CompileError.message (error : CompileError) : String :=
  match error.rule? with
  | some rule => s!"internal compiler error in rule {rule}: {error.violation.message}"
  | none => s!"internal compiler error: {error.violation.message}"

/-- A broken assumption. -/
inductive Fault
  /-- A segment was to be put at `position`, past the end of `size` segments. -/
  | insertionPastEnd (position size : Nat)
  /-- A rule is bound to `position`, where there is no segment. -/
  | unboundPosition (position : Nat)
  /-- A note of this pitch and duration is in no table. -/
  | noteOutsideTables (pitch duration : UInt8)
  deriving DecidableEq, Repr

def Fault.message : Fault → String
  | insertionPastEnd position size => s!"segment inserted at {position}, past the end {size}"
  | unboundPosition position => s!"rule bound to position {position}, which holds no segment"
  | noteOutsideTables pitch duration =>
    s!"no note has pitch {pitch.toNat} and duration {duration.toNat}"

end VisualRules
