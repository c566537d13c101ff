import VisualRules.Program.Basic
import VisualRules.Proofs.Outcome
import VisualRules.Script.Branch

namespace VisualRules

namespace Note

private theorem exists_frequency {note : Note} (h : note.InTables) :
    ∃ frequency, note.frequency = .ok frequency := by
  unfold frequency
  rw [List.getElem?_eq_getElem h.1]
  exact ⟨_, rfl⟩

private theorem exists_ticks {note : Note} (h : note.InTables) :
    ∃ ticks, note.ticks = .ok ticks := by
  unfold ticks
  rw [List.getElem?_eq_getElem h.2]
  exact ⟨_, rfl⟩

end Note

namespace Action

/-- Every note that the action plays is in the tables. -/
def InTables : Action → Prop
  | sound notes => ∀ note ∈ notes.toList, note.InTables
  | _ => True

theorem exists_statements {action : Action} (h : action.InTables) :
    ∃ statements, action.statements = .ok statements := by
  cases action with
  | sound notes =>
    obtain ⟨frequencies, hfrequencies⟩ := exists_mapM_eq_ok fun note hnote =>
      Note.exists_frequency (h note hnote)
    obtain ⟨durations, hdurations⟩ := exists_mapM_eq_ok fun note hnote =>
      Note.exists_ticks (h note hnote)
    simp only [statements, bind_eq_ok, pure_eq_ok]
    exact ⟨_, frequencies, hfrequencies, durations, hdurations, rfl⟩
  | _ => exact ⟨_, rfl⟩

private theorem exists_lines {action : Action} (h : action.InTables) (depth : Nat) :
    ∃ lines, action.lines depth = .ok lines := by
  obtain ⟨statements, hstatements⟩ := exists_statements h
  simp only [lines, bind_eq_ok, pure_eq_ok]
  exact ⟨_, statements, hstatements, rfl⟩

end Action

namespace Reaction

def InTables (reaction : Reaction) : Prop := ∀ action ∈ reaction.actions, action.InTables

private theorem exists_actionLines {reaction : Reaction} (h : reaction.InTables) (depth : Nat) :
    ∃ lines, Branch.actionLines reaction.actions depth = .ok lines := by
  obtain ⟨lines, hlines⟩ := exists_mapM_eq_ok fun action haction =>
    Action.exists_lines (h action haction) depth
  simp only [Branch.actionLines, map_eq_ok]
  exact ⟨_, lines, hlines, rfl⟩

theorem exists_branch {reaction : Reaction} (h : reaction.InTables) :
    ∃ branch, reaction.branch = .ok branch := by
  unfold branch
  split
  · obtain ⟨body, hbody⟩ := exists_actionLines h Branch.conditionDepth
    simp only [bind_eq_ok, pure_eq_ok]
    exact ⟨_, body, hbody, rfl⟩
  · obtain ⟨body, hbody⟩ := exists_actionLines h Branch.handlerDepth
    simp only [bind_eq_ok, pure_eq_ok]
    exact ⟨_, body, hbody, rfl⟩

/-- The rule tests something: a reading, or a state bit. -/
def isConditional (reaction : Reaction) : Bool := reaction.test?.isSome

theorem conditional_of_branch {reaction : Reaction} {branch : Branch}
    (h : reaction.branch = .ok branch) : branch.conditional = reaction.isConditional := by
  unfold Reaction.branch at h
  unfold isConditional
  split at h
  · next test htest =>
    simp only [bind_eq_ok, pure_eq_ok] at h
    obtain ⟨body, _, rfl⟩ := h
    rw [htest]
    rfl
  · next hnone =>
    simp only [bind_eq_ok, pure_eq_ok] at h
    obtain ⟨body, _, rfl⟩ := h
    rw [hnone]
    rfl

theorem isConditional_of_unfiltered {reaction : Reaction} (h : reaction.stateFilter = none) :
    reaction.isConditional = reaction.event.isSet := by
  unfold isConditional test?
  rw [h]
  split
  · next hset => rw [hset]; rfl
  · next hset => simp [hset]

end Reaction

namespace Card

private theorem inTables_of_notes {values : Vector Int32 soundNotes} {read : Vector Note soundNotes}
    (h : notes values = .ok read) : ∀ note ∈ read.toList, note.InTables := by
  unfold notes at h
  split at h
  · cases h
  · next hnone =>
    cases h
    intro note hnote
    rw [Vector.toList_map, List.mem_map] at hnote
    obtain ⟨value, hvalue, rfl⟩ := hnote
    obtain ⟨index, hindex, hget⟩ := List.mem_iff_getElem.mp hvalue
    have hpair : (value, index) ∈ values.toList.zipIdx :=
      List.mk_mem_zipIdx_iff_getElem?.mpr (by rw [List.getElem?_eq_getElem hindex, hget])
    simpa using List.find?_eq_none.mp hnone _ hpair

private theorem inTables_of_toAction {card : Card} {action : Action}
    (h : card.toAction = .ok action) :
    action.InTables := by
  unfold toAction at h
  rw [bind_eq_ok] at h
  obtain ⟨kind, _, h⟩ := h
  cases action with
  | sound read =>
    split at h
    case h_4 =>
      simp only [bind_eq_ok, pure_eq_ok] at h
      obtain ⟨values, _, read', hread, hsound⟩ := h
      cases hsound
      exact inTables_of_notes hread
    all_goals simp [map_eq_ok] at h
  | _ => trivial

end Card

namespace Rule

/-- What reading a rule checks, and what it returns. -/
theorem read_eq_ok {rule : Rule} {reaction : Reaction} :
    rule.read = .ok reaction ↔
      rule.actions.length ≤ maxActions ∧ rule.event.toEvent = .ok reaction.event ∧
        Option.Rel (fun card filter => card.toFilter = .ok filter) rule.stateFilter
          reaction.stateFilter ∧
        rule.actions.mapM Card.toAction = .ok reaction.actions ∧
        rule.isAdvanced = reaction.isAdvanced := by
  obtain ⟨event, stateFilter, actions, isAdvanced⟩ := reaction
  unfold read
  by_cases hcount : rule.actions.length ≤ maxActions
  · rw [if_neg (by omega)]
    simp only [hcount, true_and]
    cases rule.stateFilter with
    | none =>
      simp only [bind_eq_ok, pure_eq_ok, Reaction.mk.injEq]
      constructor
      · intro hh
        obtain ⟨_, hevent, _, rfl, _, hactions, rfl, rfl, rfl, rfl⟩ := hh
        exact ⟨hevent, .none, hactions, rfl⟩
      · intro hh
        obtain ⟨hevent, hfilter, hactions, rfl⟩ := hh
        cases hfilter
        exact ⟨_, hevent, _, rfl, _, hactions, rfl, rfl, rfl, rfl⟩
    | some card =>
      simp only [bind_eq_ok, pure_eq_ok, map_eq_ok, Reaction.mk.injEq]
      constructor
      · intro hh
        obtain ⟨_, hevent, _, ⟨filter, hfilter, rfl⟩, _, hactions, rfl, rfl, rfl, rfl⟩ := hh
        exact ⟨hevent, .some hfilter, hactions, rfl⟩
      · intro hh
        obtain ⟨hevent, hfilter, hactions, rfl⟩ := hh
        cases hfilter with
        | some hfilter =>
          exact ⟨_, hevent, _, ⟨_, hfilter, rfl⟩, _, hactions, rfl, rfl, rfl, rfl⟩
  · rw [if_pos (by omega)]
    simp [hcount, throw, throwThe, MonadExceptOf.throw, bind, Except.bind]

theorem inTables_of_read {rule : Rule} {reaction : Reaction} (h : rule.read = .ok reaction) :
    reaction.InTables := by
  obtain ⟨_, _, _, hactions, _⟩ := read_eq_ok.mp h
  intro action haction
  obtain ⟨card, _, hcard⟩ := exists_of_mem_forall₂ (mapM_eq_ok.mp hactions) haction
  exact Card.inTables_of_toAction hcard

/-- A rule is read in a mode exactly if it can be read at all and does without the state where
there is none. -/
theorem toReaction_eq_ok {advancedMode : Bool} {rule : Rule} {reaction : Reaction} :
    rule.toReaction advancedMode = .ok reaction ↔
      rule.read = .ok reaction ∧ (reaction.usesState = true → advancedMode = true) := by
  unfold toReaction
  rw [bind_eq_ok]
  constructor
  · intro hh
    obtain ⟨read, hread, h⟩ := hh
    split at h
    · cases h
    · next hstate =>
      cases h
      refine ⟨hread, ?_⟩
      intro huses
      simpa [huses] using hstate
  · intro hh
    obtain ⟨hread, hstate⟩ := hh
    refine ⟨reaction, hread, ?_⟩
    rw [if_neg (by simpa using hstate)]
    rfl

/-- The handler that the event card of the rule asks for, if the card can be read. -/
def handler? (rule : Rule) : Option Handler :=
  match rule.event.toEvent with
  | .ok event => some event.handler
  | .error _ => none

theorem toEvent_of_toReaction {advancedMode : Bool} {rule : Rule} {reaction : Reaction}
    (h : rule.toReaction advancedMode = .ok reaction) : rule.event.toEvent = .ok reaction.event :=
  (read_eq_ok.mp (toReaction_eq_ok.mp h).1).2.1

theorem handler?_of_toReaction {advancedMode : Bool} {rule : Rule} {reaction : Reaction}
    (h : rule.toReaction advancedMode = .ok reaction) : rule.handler? = some reaction.handler := by
  rw [handler?, toEvent_of_toReaction h]
  rfl

theorem inTables_of_toReaction {advancedMode : Bool} {rule : Rule} {reaction : Reaction}
    (h : rule.toReaction advancedMode = .ok reaction) : reaction.InTables :=
  inTables_of_read (toReaction_eq_ok.mp h).1

end Rule

namespace Program

theorem readFrom_eq_ok {advancedMode : Bool} {index : Nat} {rules : List Rule}
    {reactions : List Reaction} :
    readFrom advancedMode index rules = .ok reactions ↔
      List.Forall₂ (fun rule reaction => rule.toReaction advancedMode = .ok reaction)
        rules reactions := by
  induction rules generalizing index reactions with
  | nil =>
    rw [readFrom, List.forall₂_nil_left_iff, Except.ok.injEq]
    exact eq_comm
  | cons rule rules ih =>
    rw [readFrom, List.forall₂_cons_left_iff]
    cases hrule : rule.toReaction advancedMode with
    | error violation => simp
    | ok reaction =>
      simp only [map_eq_ok, ih, Except.ok.injEq]
      constructor
      · intro hh
        obtain ⟨rest, hrest, rfl⟩ := hh
        exact ⟨reaction, rest, rfl, hrest, rfl⟩
      · intro hh
        obtain ⟨_, rest, rfl, hrest, rfl⟩ := hh
        exact ⟨rest, hrest, rfl⟩

/-- The reading of a program is the reading of its rules, one for one. -/
theorem reactions_eq_ok {program : Program} {reactions : List Reaction} :
    program.reactions = .ok reactions ↔
      List.Forall₂ (fun rule reaction => rule.toReaction program.advancedMode = .ok reaction)
        program.rules reactions :=
  readFrom_eq_ok

end Program

end VisualRules
