import VisualRules.Handler.Table
import VisualRules.Violation

/-!
# Layouts

The segments of a script in order, together with every position that somebody keeps: where each
handler starts and where each rule went. To insert a segment moves all segments from that position
on, so the positions that point at them are moved with them.
-/

namespace VisualRules

inductive SegmentRole
  /-- Opens a handler. -/
  | header (handler : Handler)
  /-- Closes an advanced handler. -/
  | stateSync
  /-- The script of one rule. -/
  | branch (conditional : Bool)
  deriving DecidableEq, Repr

structure Segment where
  role : SegmentRole
  text : String
  deriving DecidableEq, Repr

namespace Segment

def header (handler : Handler) : Segment := ⟨.header handler, Line.textOf handler.header⟩

def stateSync : Segment := ⟨.stateSync, Line.textOf VisualRules.stateSync⟩

/-- The place of a rule whose script is not written yet. -/
def emptyBranch : Segment := ⟨.branch false, ""⟩

def opensCondition (segment : Segment) : Bool := segment.role = .branch true

end Segment

/-- Where a handler starts, and how many segments follow its header. -/
structure Span where
  header : Nat
  used : Nat
  deriving DecidableEq, Repr

/-- Segments in order, and the positions that are kept of them. -/
structure Layout where
  segments : List Segment
  spans : HandlerTable (Option Span)
  /-- For each rule, in the order in which rules were bound, its segment. -/
  rules : List Nat
  deriving DecidableEq, Repr

/-- Makes room at `start`: positions from there on move up by one. -/
def shiftFrom (start position : Nat) : Nat := if start ≤ position then position + 1 else position

namespace Layout

def empty : Layout := ⟨[], .replicate none, []⟩

def size (layout : Layout) : Nat := layout.segments.length

def get? (layout : Layout) (position : Nat) : Option Segment := layout.segments[position]?

def span? (layout : Layout) (handler : Handler) : Option Span := layout.spans.get handler

/-- Puts a segment at the end, at position `layout.size`. No kept position moves. -/
def push (layout : Layout) (segment : Segment) : Layout :=
  { layout with segments := layout.segments ++ [segment] }

/-- Puts a segment at a position and moves every kept position that pointed there or beyond. -/
def insert (layout : Layout) (position : Nat) (segment : Segment) : Except Fault Layout :=
  if position ≤ layout.size then
    .ok {
      segments := layout.segments.insertIdx position segment
      spans := layout.spans.map <| Option.map fun span =>
        { span with header := shiftFrom position span.header }
      rules := layout.rules.map (shiftFrom position) }
  else .error (.insertionPastEnd position layout.size)

/-- Puts another segment in the place of one, if there is one. -/
def replace? (layout : Layout) (position : Nat) (segment : Segment) : Option Layout :=
  if position < layout.size then
    some { layout with segments := layout.segments.set position segment }
  else none

def openHandler (layout : Layout) (handler : Handler) (span : Span) : Layout :=
  { layout with spans := layout.spans.set handler (some span) }

/-- Counts one more segment to a handler, if it has been opened. -/
def growHandler (layout : Layout) (handler : Handler) : Layout :=
  match layout.span? handler with
  | some span => layout.openHandler handler { span with used := span.used + 1 }
  | none => layout

/-- Records the segment of the next rule, which gets the number `layout.rules.length`. -/
def bindRule (layout : Layout) (position : Nat) : Layout :=
  { layout with rules := layout.rules ++ [position] }

/-- Looks at the positions one after the other. Each conditional branch that is found in the range
becomes its end, so that the last one found is the first in the range. -/
def narrow (segments : List Segment) (start : Nat) :
    (stop : Nat) → (found : Option Nat) → List Nat → Except Fault (Option Nat)
  | _, found, [] => .ok found
  | stop, found, position :: rest =>
    if start ≤ position ∧ position < stop then
      match segments[position]? with
      | none => .error (.unboundPosition position)
      | some segment =>
        if segment.opensCondition then narrow segments start position (some position) rest
        else narrow segments start stop found rest
    else narrow segments start stop found rest

def firstConditional (layout : Layout) (start stop : Nat) : Except Fault (Option Nat) :=
  narrow layout.segments start stop none layout.rules

/-- The opened handlers by ascending header. -/
def handlersInOrder (layout : Layout) : List (Handler × Span) :=
  (Handler.all.filterMap fun handler => (layout.span? handler).map (handler, ·)).mergeSort
    fun one other => one.2.header ≤ other.2.header

def texts (layout : Layout) : List String := layout.segments.map Segment.text

/-- An insertion fails exactly past the end. -/
theorem insert_eq_error_iff {layout : Layout} {position : Nat} {segment : Segment} {fault : Fault} :
    layout.insert position segment = .error fault ↔
      layout.size < position ∧ fault = .insertionPastEnd position layout.size := by
  unfold insert
  split
  · next hle =>
    constructor
    · intro h
      cases h
    · intro h
      omega
  · next hlt =>
    constructor
    · intro h
      cases h
      exact ⟨by omega, rfl⟩
    · rintro ⟨_, rfl⟩
      rfl

@[simp] theorem span?_openHandler (layout : Layout) (opened handler : Handler) (span : Span) :
    (layout.openHandler opened span).span? handler =
      if handler = opened then some span else layout.span? handler :=
  HandlerTable.get_set _ _ _ _

theorem span?_growHandler (layout : Layout) (grown handler : Handler) :
    (layout.growHandler grown).span? handler =
      if handler = grown then
        (layout.span? handler).map fun span => { span with used := span.used + 1 }
      else layout.span? handler := by
  unfold growHandler
  split
  · next span hspan =>
    rw [span?_openHandler]
    split
    · next heq => simp [heq, hspan]
    · rfl
  · next hspan =>
    split
    · next heq => simp [heq, hspan]
    · rfl

end Layout

end VisualRules
