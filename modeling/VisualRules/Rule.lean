import VisualRules.Card.Drawing

/-!
# Rules

One row of the editor: an event card, a state filter card if there is one, and action cards. A
`Reaction` is a rule with every card read; a rule is read as a whole or not at all.
-/

namespace VisualRules

/-- The most actions that a rule can hold. -/
def maxActions : Nat := 4

/-- The card writes some state bit. -/
def Card.isStateWrite (card : Card) : Bool :=
  card.knownKind? = some .setState && card.hasNonDefaultValue

structure Rule where
  event : Card
  stateFilter : Option Card
  actions : List Card
  /-- The rule reads or writes persistent state. -/
  isAdvanced : Bool
  deriving DecidableEq, Repr

namespace Rule

def ofEvent (event : Card) : Rule := ⟨event, none, [], false⟩

/-- Puts a state filter on the rule. Only advanced rules carry one. -/
def withStateFilter (rule : Rule) (stateFilter : Card) : Rule :=
  { rule with stateFilter := some stateFilter, isAdvanced := true }

def withActions (rule : Rule) (actions : List Card) : Rule :=
  { rule with actions := rule.actions ++ actions }

def withAction (rule : Rule) (action : Card) : Rule := rule.withActions [action]

def withAdvanced (rule : Rule) (isAdvanced : Bool) : Rule := { rule with isAdvanced := isAdvanced }

/-- Something of the rule is lost in basic mode: a state filter that asks for something, or a state
write. -/
def isAnyAdvancedFeature (rule : Rule) : Bool :=
  rule.stateFilter.any Card.hasNonDefaultValue || rule.actions.any Card.isStateWrite

end Rule

/-- A rule with every card read. -/
structure Reaction where
  event : Event
  stateFilter : Option StateFilter
  actions : List Action
  isAdvanced : Bool
  deriving DecidableEq, Repr

namespace Reaction

/-- The rule needs the state variables, which a program in basic mode does not declare. -/
def usesState (reaction : Reaction) : Bool :=
  reaction.isAdvanced || reaction.stateFilter.isSome || reaction.actions.any Action.isSetState

def handler (reaction : Reaction) : Handler := reaction.event.handler

def features (reaction : Reaction) : List Feature := reaction.actions.filterMap Action.feature?

end Reaction

/-- Reads the cards of a rule without a look at the mode of the program. -/
def Rule.read (rule : Rule) : Except Violation Reaction := do
  if rule.actions.length > maxActions then
    throw (.tooManyActions rule.actions.length maxActions)
  let event ← rule.event.toEvent
  let stateFilter ← match rule.stateFilter with
    | none => pure none
    | some card => some <$> card.toFilter
  let actions ← rule.actions.mapM Card.toAction
  return ⟨event, stateFilter, actions, rule.isAdvanced⟩

/-- Reads a rule of a program in the given mode. -/
def Rule.toReaction (advancedMode : Bool) (rule : Rule) : Except Violation Reaction := do
  let reaction ← rule.read
  if reaction.usesState && !advancedMode then throw .stateInBasicMode
  return reaction

end VisualRules
