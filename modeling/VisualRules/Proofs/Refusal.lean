import VisualRules.Proofs.Fitting
import VisualRules.Proofs.Placement

/-!
# Programs that are refused

A program has a script exactly if each of its rules is good. If one is not, the first such rule is
blamed for the first thing that is wrong with it, whatever comes below.
-/

namespace VisualRules

namespace Rule

/-- The rule needs the state variables: it is advanced, or has a state filter, or a card that writes
state. Whether the filter asks for something or the card writes something is of no account. -/
def AsksForState (rule : Rule) : Prop :=
  rule.isAdvanced = true ∨ rule.stateFilter.isSome = true ∨
    ∃ card ∈ rule.actions, card.kind = Kind.setState.name

/-- There are not too many actions, and every card can be read in its place. -/
structure CardsFit (rule : Rule) : Prop where
  length_le : rule.actions.length ≤ 4
  event : rule.event.Fits .event
  stateFilter : ∀ card ∈ rule.stateFilter, card.Fits .stateFilter
  actions : ∀ card ∈ rule.actions, card.Fits .action

structure Good (rule : Rule) (advancedMode : Bool) : Prop where
  cardsFit : rule.CardsFit
  state : advancedMode = false → ¬rule.AsksForState

/-- The first thing that is wrong with a rule: the number of its actions, its event, its state
filter, one of its actions from left to right, or the state in basic mode. -/
inductive Breaks (rule : Rule) (advancedMode : Bool) : Violation → Prop
  | actionCount (h : 4 < rule.actions.length) :
    Breaks rule advancedMode (.tooManyActions rule.actions.length 4)
  | event {violation : Violation} (length_le : rule.actions.length ≤ 4)
      (h : rule.event.Breaks .event violation) : Breaks rule advancedMode violation
  | stateFilter {card : Card} {violation : Violation} (length_le : rule.actions.length ≤ 4)
      (event : rule.event.Fits .event) (stateFilter_eq : rule.stateFilter = some card)
      (h : card.Breaks .stateFilter violation) : Breaks rule advancedMode violation
  | action {before after : List Card} {card : Card} {violation : Violation}
      (length_le : rule.actions.length ≤ 4) (event : rule.event.Fits .event)
      (stateFilter : ∀ card ∈ rule.stateFilter, card.Fits .stateFilter)
      (actions_eq : rule.actions = before ++ card :: after)
      (actions : ∀ earlier ∈ before, earlier.Fits .action) (h : card.Breaks .action violation) :
    Breaks rule advancedMode violation
  | state (cardsFit : rule.CardsFit) (basic : advancedMode = false) (h : rule.AsksForState) :
    Breaks rule advancedMode .stateInBasicMode

variable {rule : Rule} {advancedMode : Bool} {violation : Violation} {reaction : Reaction}

private theorem good_or_breaks (rule : Rule) (advancedMode : Bool) :
    rule.Good advancedMode ∨ ∃ violation, rule.Breaks advancedMode violation := by
  by_cases hlength : rule.actions.length ≤ 4
  case neg => exact .inr ⟨_, .actionCount (by omega)⟩
  rcases Card.fits_or_breaks rule.event .event with hevent | ⟨violation, hevent⟩
  case inr => exact .inr ⟨violation, .event hlength hevent⟩
  by_cases hfilter : ∀ card ∈ rule.stateFilter, card.Fits .stateFilter
  case neg =>
    simp only [not_forall] at hfilter
    obtain ⟨card, hcard, hfits⟩ := hfilter
    obtain ⟨violation, hbreaks⟩ := (Card.fits_or_breaks card .stateFilter).resolve_left hfits
    exact .inr ⟨violation, .stateFilter hlength hevent hcard hbreaks⟩
  rcases forall_or_exists_first (Card.Fits · .action) rule.actions with
    hactions | ⟨before, card, after, heq, hbefore, hfits⟩
  case inr =>
    obtain ⟨violation, hbreaks⟩ := (Card.fits_or_breaks card .action).resolve_left hfits
    exact .inr ⟨violation, .action hlength hevent hfilter heq hbefore hbreaks⟩
  have hcards : rule.CardsFit := ⟨hlength, hevent, hfilter, hactions⟩
  by_cases hstate : advancedMode = false ∧ rule.AsksForState
  · exact .inr ⟨_, .state hcards hstate.1 hstate.2⟩
  · exact .inl ⟨hcards, fun hbasic hasks => hstate ⟨hbasic, hasks⟩⟩

private theorem exists_read (h : rule.CardsFit) : ∃ reaction, rule.read = .ok reaction := by
  have hcount : ¬rule.actions.length > maxActions := Nat.not_lt.mpr h.length_le
  obtain ⟨event, hevent⟩ := Card.reads_toEvent.of_fits h.event
  obtain ⟨actions, hactions⟩ := exists_mapM_eq_ok fun card hcard =>
    Card.reads_toAction.of_fits (h.actions card hcard)
  rw [read, if_neg hcount, hevent, hactions]
  cases hfilter : rule.stateFilter with
  | none => exact ⟨_, rfl⟩
  | some card =>
    obtain ⟨filter, hread⟩ := Card.reads_toFilter.of_fits (h.stateFilter card hfilter)
    simp [hread]

private theorem read_of_event (hlength : rule.actions.length ≤ 4)
    (h : rule.event.Breaks .event violation) : rule.read = .error violation := by
  have hcount : ¬rule.actions.length > maxActions := Nat.not_lt.mpr hlength
  rw [read, if_neg hcount, Card.reads_toEvent.of_breaks h]
  rfl

private theorem read_of_stateFilter {card : Card} (hlength : rule.actions.length ≤ 4)
    (hevent : rule.event.Fits .event) (hcard : rule.stateFilter = some card)
    (h : card.Breaks .stateFilter violation) : rule.read = .error violation := by
  have hcount : ¬rule.actions.length > maxActions := Nat.not_lt.mpr hlength
  obtain ⟨event, hevent⟩ := Card.reads_toEvent.of_fits hevent
  rw [read, if_neg hcount, hevent, hcard]
  simp [Card.reads_toFilter.of_breaks h]

private theorem read_of_action {before after : List Card} {card : Card}
    (hlength : rule.actions.length ≤ 4)
    (hevent : rule.event.Fits .event) (hfilter : ∀ card ∈ rule.stateFilter, card.Fits .stateFilter)
    (hactions : rule.actions = before ++ card :: after)
    (hbefore : ∀ earlier ∈ before, earlier.Fits .action) (h : card.Breaks .action violation) :
    rule.read = .error violation := by
  have hcount : ¬rule.actions.length > maxActions := Nat.not_lt.mpr hlength
  obtain ⟨event, hevent⟩ := Card.reads_toEvent.of_fits hevent
  have hrefused : rule.actions.mapM Card.toAction = .error violation := by
    rw [hactions]
    exact mapM_append_cons_eq_error
      (fun earlier hearlier => Card.reads_toAction.of_fits (hbefore earlier hearlier))
      (Card.reads_toAction.of_breaks h)
  rw [read, if_neg hcount, hevent, hrefused]
  cases hcard : rule.stateFilter with
  | none => rfl
  | some card =>
    obtain ⟨filter, hread⟩ := Card.reads_toFilter.of_fits (hfilter card hcard)
    simp [hread]

end Rule

private theorem Action.isSetState_iff (action : Action) :
    action.isSetState = true ↔ action.kind = .setState := by
  cases action with
  | setState slots => exact iff_of_true rfl rfl
  | _ => exact iff_of_false Bool.false_ne_true nofun

theorem Card.isSetState_iff_of_toAction {card : Card} {action : Action}
    (h : card.toAction = .ok action) :
    action.isSetState = true ↔ card.kind = Kind.setState.name := by
  rw [action.isSetState_iff, kind_of_toAction h, Kind.name_inj]

namespace Rule

variable {rule : Rule} {advancedMode : Bool} {violation : Violation} {reaction : Reaction}

private theorem any_isSetState_iff_of_mapM {cards : List Card} {actions : List Action}
    (h : cards.mapM Card.toAction = .ok actions) :
    actions.any Action.isSetState = true ↔ ∃ card ∈ cards, card.kind = Kind.setState.name := by
  rw [List.any_eq_true, exists_mem_iff_of_forall₂ (mapM_eq_ok.mp h)]
  exact fun card action hcard => (Card.isSetState_iff_of_toAction hcard).symm

private theorem usesState_iff_of_read (h : rule.read = .ok reaction) :
    reaction.usesState = true ↔ rule.AsksForState := by
  obtain ⟨_, _, hfilter, hactions, hadvanced⟩ := read_eq_ok.mp h
  have hfilters : reaction.stateFilter.isSome = rule.stateFilter.isSome := by
    generalize rule.stateFilter = card?, reaction.stateFilter = filter? at hfilter
    cases hfilter with
    | none => rfl
    | some _ => rfl
  have hwrites := any_isSetState_iff_of_mapM hactions
  rw [Reaction.usesState, Bool.or_eq_true, Bool.or_eq_true, hwrites, hfilters, ← hadvanced,
    or_assoc]
  rfl

private theorem toReaction_of_read_error (h : rule.read = .error violation) :
    rule.toReaction advancedMode = .error violation := by
  rw [toReaction, h, error_bind]

private theorem toReaction_of_good (h : rule.Good advancedMode) :
    ∃ reaction, rule.toReaction advancedMode = .ok reaction := by
  obtain ⟨reaction, hread⟩ := exists_read h.cardsFit
  refine ⟨reaction, toReaction_eq_ok.mpr ⟨hread, ?_⟩⟩
  intro huses
  by_contra hbasic
  exact h.state (by simpa using hbasic) ((usesState_iff_of_read hread).mp huses)

private theorem toReaction_of_breaks (h : rule.Breaks advancedMode violation) :
    rule.toReaction advancedMode = .error violation := by
  cases h with
  | actionCount h =>
    apply toReaction_of_read_error
    have hcount : rule.actions.length > maxActions := h
    rw [read, if_pos hcount]
    rfl
  | event hlength h => exact toReaction_of_read_error (read_of_event hlength h)
  | stateFilter hlength hevent hcard h =>
    exact toReaction_of_read_error (read_of_stateFilter hlength hevent hcard h)
  | action hlength hevent hfilter heq hbefore h =>
    exact toReaction_of_read_error (read_of_action hlength hevent hfilter heq hbefore h)
  | state hcards hbasic h =>
    obtain ⟨reaction, hread⟩ := exists_read hcards
    have huses := (usesState_iff_of_read hread).mpr h
    rw [toReaction, hread, ok_bind, huses, hbasic]
    rfl

private theorem not_good_of_breaks (h : rule.Breaks advancedMode violation) :
    ¬rule.Good advancedMode := by
  intro hgood
  obtain ⟨reaction, hreaction⟩ := toReaction_of_good hgood
  rw [toReaction_of_breaks h] at hreaction
  cases hreaction

end Rule

namespace Program

variable {advancedMode : Bool} {index : Nat} {before rules after : List Rule} {rule : Rule}
  {violation : Violation}

/-- A list of rules is good as a whole, or there is a first rule that is not, and a first thing
wrong with it. -/
theorem good_or_first_breaks (advancedMode : Bool) (rules : List Rule) :
    (∀ rule ∈ rules, rule.Good advancedMode) ∨
      ∃ before rule after violation, rules = before ++ rule :: after ∧
        (∀ earlier ∈ before, earlier.Good advancedMode) ∧ rule.Breaks advancedMode violation := by
  rcases forall_or_exists_first (Rule.Good · advancedMode) rules with
    hgood | ⟨before, rule, after, heq, hbefore, hrule⟩
  · exact .inl hgood
  · obtain ⟨violation, hbreaks⟩ := (Rule.good_or_breaks rule advancedMode).resolve_left hrule
    exact .inr ⟨before, rule, after, violation, heq, hbefore, hbreaks⟩

private theorem exists_readFrom (h : ∀ rule ∈ rules, rule.Good advancedMode) :
    ∃ reactions, readFrom advancedMode index rules = .ok reactions := by
  have hread : ∃ reactions, rules.mapM (Rule.toReaction advancedMode) = .ok reactions :=
    exists_mapM_eq_ok fun rule hrule => Rule.toReaction_of_good (h rule hrule)
  obtain ⟨reactions, hreactions⟩ := hread
  exact ⟨reactions, readFrom_eq_ok.mpr (mapM_eq_ok.mp hreactions)⟩

private theorem readFrom_of_first_breaks (hbefore : ∀ earlier ∈ before, earlier.Good advancedMode)
    (h : rule.Breaks advancedMode violation) :
    readFrom advancedMode index (before ++ rule :: after) =
      .error ⟨some (index + before.length), violation⟩ := by
  induction before generalizing index with
  | nil => rw [List.nil_append, readFrom, Rule.toReaction_of_breaks h]; rfl
  | cons first rest ih =>
    rw [List.forall_mem_cons] at hbefore
    obtain ⟨reaction, hreaction⟩ := Rule.toReaction_of_good hbefore.1
    have hindex : index + 1 + rest.length = index + (first :: rest).length := by
      rw [List.length_cons]
      omega
    rw [List.cons_append, readFrom, hreaction]
    show (reaction :: ·) <$> readFrom advancedMode (index + 1) (rest ++ rule :: after) = _
    rw [ih hbefore.2, hindex]
    rfl

theorem compile_of_first_breaks {program : Program} (heq : program.rules = before ++ rule :: after)
    (hbefore : ∀ earlier ∈ before, earlier.Good program.advancedMode)
    (h : rule.Breaks program.advancedMode violation) :
    program.compile = .error (.refused ⟨some before.length, violation⟩) := by
  rw [compile, reactions, heq, readFrom_of_first_breaks hbefore h, Nat.zero_add]
  rfl

/-- What is read is laid out, so there is a script exactly if every rule is read. -/
theorem exists_compile_iff {program : Program} :
    (∃ script, program.compile = .ok script) ↔
      ∀ rule ∈ program.rules, rule.Good program.advancedMode := by
  constructor
  · rintro ⟨script, hscript⟩
    rcases good_or_first_breaks program.advancedMode program.rules with
      hgood | ⟨before, rule, after, violation, heq, hbefore, hbreaks⟩
    · exact hgood
    · rw [compile_of_first_breaks heq hbefore hbreaks] at hscript
      cases hscript
  · intro hgood
    obtain ⟨reactions, hreactions⟩ := exists_readFrom hgood
    obtain ⟨_, assembly, _, _, _, hcompile⟩ := exists_compile hreactions
    exact ⟨_, hcompile⟩

theorem compile_eq_error_iff {program : Program} {failure : Failure} :
    program.compile = .error failure ↔
      ∃ before rule after violation, program.rules = before ++ rule :: after ∧
        (∀ earlier ∈ before, earlier.Good program.advancedMode) ∧
          rule.Breaks program.advancedMode violation ∧
            failure = .refused ⟨some before.length, violation⟩ := by
  constructor
  · intro hfailure
    rcases good_or_first_breaks program.advancedMode program.rules with
      hgood | ⟨before, rule, after, violation, heq, hbefore, hbreaks⟩
    · obtain ⟨script, hscript⟩ := exists_compile_iff.mpr hgood
      rw [hfailure] at hscript
      cases hscript
    · rw [compile_of_first_breaks heq hbefore hbreaks] at hfailure
      cases hfailure
      exact ⟨before, rule, after, violation, heq, hbefore, hbreaks, rfl⟩
  · rintro ⟨before, rule, after, violation, heq, hbefore, hbreaks, rfl⟩
    exact compile_of_first_breaks heq hbefore hbreaks

/-- A program compiles exactly if all of its rules are good. Otherwise the first bad rule is blamed,
for the first thing that is wrong with it. -/
theorem compiles_or_first_bad_rule_blamed (program : Program) :
    ((∃ script, program.compile = .ok script) ↔
        ∀ rule ∈ program.rules, rule.Good program.advancedMode) ∧
      ∀ failure, program.compile = .error failure ↔
        ∃ before rule after violation, program.rules = before ++ rule :: after ∧
          (∀ earlier ∈ before, earlier.Good program.advancedMode) ∧
          ¬rule.Good program.advancedMode ∧ rule.Breaks program.advancedMode violation ∧
          failure = .refused ⟨some before.length, violation⟩ := by
  refine ⟨exists_compile_iff, fun failure => ?_⟩
  rw [compile_eq_error_iff]
  constructor
  · rintro ⟨before, rule, after, violation, heq, hbefore, hbreaks, hfailure⟩
    have hbad := Rule.not_good_of_breaks hbreaks
    exact ⟨before, rule, after, violation, heq, hbefore, hbad, hbreaks, hfailure⟩
  · rintro ⟨before, rule, after, violation, heq, hbefore, _, hbreaks, hfailure⟩
    exact ⟨before, rule, after, violation, heq, hbefore, hbreaks, hfailure⟩

end Program

end VisualRules
