import VisualRules.Script.Branch
import VisualRules.Script.Layout

/-!
# Assembly

Rules are laid out one after the other. The first rule of a handler opens it; a later rule goes to
the end of it, before the state snapshot if the rule is advanced. A basic rule whose event asks for
nothing goes before the first conditional branch of its handler instead: branches run from top to
bottom and later assignments win, so every special case still overrides the default.
-/

namespace VisualRules

/-- The rules laid out so far, and the support code that they rely on. -/
structure Assembly where
  layout : Layout
  features : FeatureSet
  deriving DecidableEq, Repr

namespace Assembly

def empty : Assembly := ⟨.empty, .empty⟩

/-- Opens the handler of a rule at the end. Only an advanced rule adds the state snapshot, which
stays the last segment of the handler. -/
def openHandler (assembly : Assembly) (reaction : Reaction) : Assembly :=
  let layout := assembly.layout
  let opened := layout.push (.header reaction.handler)
  let opened := if reaction.isAdvanced then opened.push .stateSync else opened
  let used := if reaction.isAdvanced then 2 else 1
  { layout := opened.openHandler reaction.handler ⟨layout.size, used⟩
    features := assembly.features.insertAll reaction.handler.feature?.toList }

def extensionPoint (layout : Layout) (span : Span) (reaction : Reaction) : Except Fault Nat :=
  let last := span.header + span.used
  if reaction.isAdvanced then .ok last
  else if reaction.event.isSet then .ok (last + 1)
  else (·.getD (last + 1)) <$> layout.firstConditional span.header (last + 1)

/-- Makes room for a rule in its handler: the assembly with the handler opened or grown, and the
position of the rule in it. -/
def place (assembly : Assembly) (reaction : Reaction) : Except Fault (Assembly × Nat) :=
  match assembly.layout.span? reaction.handler with
  | none => .ok (assembly.openHandler reaction, assembly.layout.size + 1)
  | some span => do
    let position ← extensionPoint assembly.layout span reaction
    return ({ assembly with layout := assembly.layout.growHandler reaction.handler }, position)

def segmentOf (branch : Branch) : Segment := ⟨.branch branch.conditional, branch.text⟩

def add (assembly : Assembly) (reaction : Reaction) : Except Fault Assembly := do
  let (assembly, position) ← assembly.place reaction
  let branch ← reaction.branch
  let layout ← assembly.layout.insert position (segmentOf branch)
  return {
    layout := layout.bindRule position
    features := assembly.features.insertAll reaction.features }

def ofReactions (reactions : List Reaction) : Except Fault Assembly := reactions.foldlM add empty

end Assembly

end VisualRules
