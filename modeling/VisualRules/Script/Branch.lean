import VisualRules.Rule
import VisualRules.Script.Condition
import VisualRules.Script.Statement

namespace VisualRules

structure Branch where
  lines : List Line
  /-- The actions stand between `if` and `end`. -/
  conditional : Bool
  deriving DecidableEq, Repr

namespace Branch

def text (branch : Branch) : String := Line.textOf branch.lines

/-- How far statements directly in a handler are indented. -/
def handlerDepth : Nat := 1

/-- How far statements between `if` and `end` are indented. -/
def conditionDepth : Nat := 2

def actionLines (actions : List Action) (depth : Nat) : Except Fault (List Line) :=
  List.flatten <$> actions.mapM (·.lines depth)

end Branch

namespace Reaction

/-- The test of the rule: that of its event, continued by what its filter asks for. A filter stands
alone where the event asks for nothing. -/
def test? (reaction : Reaction) : Option String :=
  if reaction.event.isSet then
    some (reaction.event.test ++ reaction.stateFilter.elim "" StateFilter.conjunction)
  else (reaction.stateFilter.filter StateFilter.isSet).map StateFilter.test

/-- What has to be computed before the test of the rule. -/
def preparation (reaction : Reaction) : List Line :=
  if reaction.event.isSet then reaction.event.preparation else []

def branch (reaction : Reaction) : Except Fault Branch :=
  match reaction.test? with
  | some test => do
    let body ← Branch.actionLines reaction.actions Branch.conditionDepth
    return ⟨reaction.preparation ++ ⟨1, s!"if {test} then"⟩ :: body ++ [⟨1, "end"⟩], true⟩
  | none => do
    let body ← Branch.actionLines reaction.actions Branch.handlerDepth
    return ⟨reaction.preparation ++ body, false⟩

end Reaction

end VisualRules
