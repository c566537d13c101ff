import VisualRules.Script.Assembly
import VisualRules.Script.Basic
import VisualRules.Script.Preamble

namespace VisualRules

/-- What the editor holds. -/
structure Program where
  rules : List Rule
  advancedMode : Bool
  deriving DecidableEq, Repr

namespace Program

def empty (advancedMode : Bool) : Program := ⟨[], advancedMode⟩

/-- A program in basic mode. -/
def ofRules (rules : List Rule) : Program := ⟨rules, false⟩

def push (program : Program) (rule : Rule) : Program :=
  { program with rules := program.rules ++ [rule] }

def withAdvancedMode (program : Program) (advancedMode : Bool) : Program :=
  { program with advancedMode := advancedMode }

/-- Something of the program is lost in basic mode. -/
def isAnyAdvancedFeature (program : Program) : Bool :=
  program.rules.any Rule.isAnyAdvancedFeature

/-- Reads every rule, from the first on, and blames the first that cannot be read. -/
def readFrom (advancedMode : Bool) : Nat → List Rule → Except CompileError (List Reaction)
  | _, [] => .ok []
  | index, rule :: rest =>
    match rule.toReaction advancedMode with
    | .error violation => .error ⟨some index, violation⟩
    | .ok reaction => (reaction :: ·) <$> readFrom advancedMode (index + 1) rest

def reactions (program : Program) : Except CompileError (List Reaction) :=
  readFrom program.advancedMode 0 program.rules

end Program

inductive Failure
  | refused (error : CompileError)
  | fault (fault : Fault)
  deriving DecidableEq, Repr

/-- The finished script: the preamble stands in front of the first segment, if there is one. -/
def Assembly.script (assembly : Assembly) (advancedMode : Bool) : Script where
  segments :=
    assembly.layout.texts.modifyHead (Line.textOf (preamble advancedMode assembly.features) ++ ·)
  rulePositions := assembly.layout.rules
  features := assembly.features

def Program.compile (program : Program) : Except Failure Script := do
  let reactions ← program.reactions.mapError Failure.refused
  let assembly ← (Assembly.ofReactions reactions).mapError Failure.fault
  return assembly.script program.advancedMode

end VisualRules
