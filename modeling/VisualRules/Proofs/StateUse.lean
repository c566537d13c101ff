import VisualRules.Proofs.TestReading
import VisualRules.Proofs.Words

/-!
# The state in the code of a rule

Whether a rule uses the state is told from its cards: by a filter that asks for a state bit, or by a
card that writes one. The code of the rule says the same. It names the state where a filter or a
write put it there, and nowhere else.
-/

namespace VisualRules

/-- The text names an entry of the state, as it is or as it will be. -/
def MentionsState (text : String) : Prop := "state[".toList <:+: text.toList

/-- A test in the code asks for a state bit. -/
def ReadsState (code : String) : Prop :=
  ∃ line ∈ testLines code, ∃ slot < stateSlots, s!"state[{slot}] ==".toList <:+: line.toList

def WritesState (code : String) : Prop :=
  ∃ slot < stateSlots, s!"new_state[{slot}] =".toList <:+: code.toList

/-- The cards of a rule tell what its code does with the state. -/
structure Rule.TellsStateUse (rule : Rule) (code : String) : Prop where
  reads_iff : rule.stateFilter.any Card.hasNonDefaultValue = true ↔ ReadsState code
  writes_iff : rule.actions.any Card.isStateWrite = true ↔ WritesState code
  mentions_iff : rule.isAnyAdvancedFeature = true ↔ MentionsState code

/-- Characters that stand next to each other in `state[`, and in `new_state`, and in nothing else that
a rule is translated to. -/
def stateMarks : List (Char × Char) := [('e', '['), ('_', 's')]

def Action.writesState (action : Action) : Bool := action.isSetState && action.isSet

private theorem stateWrites_eq_nil_iff {slots : List StateSlot} :
    stateWrites slots = [] ↔ slots.any (· ≠ .any) = false :=
  filterMap_zipIdx_eq_nil_iff fun slot _ => by cases slot <;> simp [StateSlot.bit?]

private theorem part_append_left (text other : String) :
    text.toList <:+: (text ++ other).toList := by
  rw [String.toList_append]
  exact List.infix_append_left

private theorem part_append_right (text other : String) :
    other.toList <:+: (text ++ other).toList := by
  rw [String.toList_append]
  exact List.infix_append_right

private theorem part_of_testLine (test : String) :
    ("if " ++ test ++ " then").toList <:+: (testLine test).toList := by
  rw [← content_test]
  exact part_append_right _ _

private theorem test_part_of_testLine (test : String) : test.toList <:+: (testLine test).toList :=
  (part_append_right _ _).trans (part_append_left _ _)

section Absence

variable {mark : Char × Char}

private theorem Template.Matches.neverMeet {first second : Char} {template : Template}
    {code : String} (h : template.Matches code) (hfirst : isNumeralChar first = false)
    (hsecond : isNumeralChar second = false)
    (hbefore : NeverMeet first second template.before.toList)
    (hafter : NeverMeet first second template.after.toList)
    (hhead : template.after.toList.head? ≠ some second) :
    NeverMeet first second code.toList := by
  obtain ⟨numeral, hnumeral, rfl⟩ := h
  have hnot {c : Char} (hc : isNumeralChar c = false) : c ∉ numeral.toList := by
    intro hmem
    rw [List.all_eq_true.mp hnumeral c hmem] at hc
    cases hc
  rw [String.toList_append, String.toList_append]
  refine (hbefore.append (.of_not_mem_first (hnot hfirst)) (.inr ?_)).append hafter (.inr hhead)
  exact fun hmem => hnot hsecond (List.mem_of_mem_head? hmem)

private theorem isNumeralChar_of_mark (h : mark ∈ stateMarks) :
    isNumeralChar mark.1 = false ∧ isNumeralChar mark.2 = false := by
  have hall : ∀ mark ∈ stateMarks,
      isNumeralChar mark.1 = false ∧ isNumeralChar mark.2 = false := by decide
  exact hall mark h

private theorem Action.neverMeet_of_mem_templates {action : Action}
    (h : action.isSetState = false) :
    ∀ template ∈ action.templates, ∀ mark ∈ stateMarks,
      NeverMeet mark.1 mark.2 template.before.toList ∧
        NeverMeet mark.1 mark.2 template.after.toList ∧
          template.after.toList.head? ≠ some mark.2 := by
  cases action with
  | setState slots => cases h
  | _ => rw [templates]; decide

private theorem Action.neverMeet_statements {action : Action} {codes : List String}
    (hmark : mark ∈ stateMarks) (hwrites : action.writesState = false)
    (h : action.statements = .ok codes) :
    ∀ code ∈ codes, NeverMeet mark.1 mark.2 code.toList := by
  intro code hcode
  cases hstate : action.isSetState with
  | true =>
    cases action with
    | setState slots =>
      rw [writesState, hstate, Bool.true_and] at hwrites
      cases h
      rw [stateWrites_eq_nil_iff.mpr hwrites] at hcode
      cases hcode
    | _ => cases hstate
  | false =>
    obtain ⟨template, htemplate, hmatches⟩ := exists_template_of_statements h code hcode
    obtain ⟨hbefore, hafter, hhead⟩ :=
      neverMeet_of_mem_templates hstate template htemplate mark hmark
    obtain ⟨hfirst, hsecond⟩ := isNumeralChar_of_mark hmark
    exact hmatches.neverMeet hfirst hsecond hbefore hafter hhead

private theorem Variable.neverMeet_text (hmark : mark ∈ stateMarks) {operand : Variable}
    (h : mark = ('_', 's') ∨ ∀ slot, operand ≠ .state slot) :
    NeverMeet mark.1 mark.2 operand.text.toList := by
  obtain ⟨hfirst, hsecond⟩ := isNumeralChar_of_mark hmark
  have hindexed {name : String} (hname : NeverMeet mark.1 mark.2 name.toList) (index : Nat) :
      NeverMeet mark.1 mark.2 (name ++ index.repr ++ "]").toList := by
    have hbracket : ∀ mark ∈ stateMarks,
        NeverMeet mark.1 mark.2 "]".toList ∧ "]".toList.head? ≠ some mark.2 := by decide
    have hmatches : Template.Matches ⟨name, "]"⟩ (name ++ index.repr ++ "]") :=
      ⟨_, isNumeral_repr index, rfl⟩
    exact hmatches.neverMeet hfirst hsecond hname (hbracket mark hmark).1 (hbracket mark hmark).2
  have hwords : ∀ mark ∈ stateMarks, NeverMeet mark.1 mark.2 "prox.horizontal[".toList ∧
      NeverMeet mark.1 mark.2 "prox.ground.delta[".toList ∧
        NeverMeet mark.1 mark.2 "angle".toList ∧
          ∀ button ∈ Button.all, NeverMeet mark.1 mark.2 (Variable.button button).text.toList := by
    decide
  obtain ⟨hhorizontal, hground, hangle, hbuttons⟩ := hwords mark hmark
  cases operand with
  | button which => exact hbuttons which (by cases which <;> decide)
  | horizontal sensor => exact hindexed hhorizontal sensor
  | ground sensor => exact hindexed hground sensor
  | angle => exact hangle
  | state slot =>
    rcases h with rfl | hstate
    · exact hindexed (by decide) slot
    · exact absurd rfl (hstate slot)

private theorem Clause.neverMeet_testOf (hmark : mark ∈ stateMarks) {clauses : List Clause}
    (h : mark = ('_', 's') ∨ ∀ clause ∈ clauses, ∀ slot, clause.operand ≠ .state slot) :
    NeverMeet mark.1 mark.2 (testOf clauses).toList := by
  have hjoint : ∀ mark ∈ stateMarks, NeverMeet mark.1 mark.2 " and ".toList ∧
      " and ".toList.getLast? ≠ some mark.1 ∧ " and ".toList.head? ≠ some mark.2 ∧
        mark.2 ∉ ['<', '>', '='] := by decide
  obtain ⟨hand, hlast, hhead, hsign⟩ := hjoint mark hmark
  refine NeverMeet.intercalate hand hlast hhead (by decide) ?_
  rw [List.forall_mem_map]
  intro clause hclause
  have hbounds : mark.2 ∉ clause.bounds.toList :=
    clause.not_mem_bounds (isNumeralChar_of_mark hmark).2 hsign
  have hoperand : NeverMeet mark.1 mark.2 clause.operand.text.toList :=
    Variable.neverMeet_text hmark (h.imp_right fun hall => hall clause hclause)
  rw [toList_text]
  refine hoperand.append (.of_not_mem_second hbounds) (.inr ?_)
  exact fun hmem => hbounds (List.mem_of_mem_head? hmem)

private theorem Event.operand_ne_state (event : Event) :
    ∀ clause ∈ event.clauses, ∀ slot, clause.operand ≠ .state slot := by
  intro clause hclause slot hoperand
  have hsymbols := event.symbols_of_mem_clauses clause hclause
  rw [hoperand, symbols] at hsymbols
  split at hsymbols <;> cases hsymbols

namespace Reaction

variable {reaction : Reaction} {branch : Branch}

private theorem operand_ne_state (h : reaction.stateFilter.any StateFilter.isSet = false)
    {clauses : List Clause} (hcondition : reaction.condition? = some clauses) :
    ∀ clause ∈ clauses, ∀ slot, clause.operand ≠ .state slot := by
  rw [condition?] at hcondition
  split at hcondition
  · cases hcondition
    rw [List.forall_mem_append]
    refine ⟨reaction.event.operand_ne_state, ?_⟩
    cases hfilter : reaction.stateFilter with
    | none => exact List.forall_mem_nil _
    | some filter =>
      rw [hfilter] at h
      have hnil : filter.clauses = [] := filter.clauses_eq_nil_iff.mpr h
      rw [Option.elim_some, hnil]
      exact List.forall_mem_nil _
  · obtain ⟨filter, hsome, _⟩ := Option.map_eq_some_iff.mp hcondition
    obtain ⟨hfilter, hset⟩ := Option.filter_eq_some_iff.mp hsome
    rw [hfilter, Option.any_some, hset] at h
    cases h

private theorem code_of_mem_lines (h : reaction.branch = .ok branch) {line : Line}
    (hline : line ∈ branch.lines) :
    line ∈ reaction.preparation ∨ line.code = "end" ∨
      (∃ clauses, reaction.condition? = some clauses ∧
        line.code = "if " ++ Clause.testOf clauses ++ " then") ∨
      ∃ action ∈ reaction.actions, ∃ codes, action.statements = .ok codes ∧ line.code ∈ codes := by
  cases hcondition : reaction.condition? with
  | none =>
    obtain ⟨body, hbody, heq⟩ := lines_of_no_condition h hcondition
    rw [heq, List.mem_append] at hline
    rcases hline with hpreparation | hmem
    · exact .inl hpreparation
    · exact .inr (.inr (.inr (Branch.mem_actionLines hbody hmem).2))
  | some clauses =>
    obtain ⟨body, hbody, heq⟩ := lines_of_condition h hcondition
    simp only [heq, List.mem_append, List.mem_cons, List.not_mem_nil, or_false] at hline
    rcases hline with (hpreparation | rfl | hmem) | rfl
    · exact .inl hpreparation
    · exact .inr (.inr (.inl ⟨clauses, rfl, rfl⟩))
    · exact .inr (.inr (.inr (Branch.mem_actionLines hbody hmem).2))
    · exact .inr (.inl rfl)

private theorem neverMeet_preparation (hmark : mark ∈ stateMarks) {line : Line}
    (h : line ∈ reaction.preparation) : NeverMeet mark.1 mark.2 line.code.toList := by
  have hwords : ∀ mark ∈ stateMarks,
      NeverMeet mark.1 mark.2 "call math.atan2(angle, acc[1], acc[2])".toList ∧
        NeverMeet mark.1 mark.2 "call math.atan2(angle, acc[0], acc[2])".toList := by decide
  unfold preparation Event.preparation at h
  split at h
  · split at h
    · rw [List.mem_singleton.mp h]
      exact (hwords mark hmark).1
    · rw [List.mem_singleton.mp h]
      exact (hwords mark hmark).2
    · cases h
  · cases h

private theorem neverMeet_test (hmark : mark ∈ stateMarks)
    (h : mark = ('_', 's') ∨ reaction.stateFilter.any StateFilter.isSet = false)
    {clauses : List Clause} (hcondition : reaction.condition? = some clauses) :
    NeverMeet mark.1 mark.2 (testLine (Clause.testOf clauses)).toList := by
  have hwords : ∀ mark ∈ stateMarks, NeverMeet mark.1 mark.2 "\tif ".toList ∧
      "\tif ".toList.getLast? ≠ some mark.1 ∧ NeverMeet mark.1 mark.2 " then".toList ∧
        " then".toList.head? ≠ some mark.2 := by decide
  obtain ⟨hif, hlast, hthen, hhead⟩ := hwords mark hmark
  have htest : NeverMeet mark.1 mark.2 (Clause.testOf clauses).toList :=
    Clause.neverMeet_testOf hmark (h.imp_right fun hunset => operand_ne_state hunset hcondition)
  rw [testLine, String.toList_append, String.toList_append]
  exact (hif.append htest (.inl hlast)).append hthen (.inr hhead)

/-- The code of a rule names the state only where a filter or a write put it. -/
theorem neverMeet_branch (hmark : mark ∈ stateMarks) (h : reaction.branch = .ok branch)
    (hfilter : mark = ('_', 's') ∨ reaction.stateFilter.any StateFilter.isSet = false)
    (hwrites : reaction.actions.any Action.writesState = false) :
    NeverMeet mark.1 mark.2 branch.text.toList := by
  have hwords : ∀ mark ∈ stateMarks, mark.1 ∉ ['\t', '\n'] ∧ mark.2 ≠ '\n' ∧
      NeverMeet mark.1 mark.2 "end".toList := by decide
  obtain ⟨hfirst, hsecond, hend⟩ := hwords mark hmark
  refine NeverMeet.textOf hfirst hsecond fun line hline => ?_
  rcases code_of_mem_lines h hline with
    hpreparation | hcode | ⟨clauses, hcondition, hcode⟩ | ⟨action, haction, codes, hcodes, hcode⟩
  · exact neverMeet_preparation hmark hpreparation
  · rw [hcode]
    exact hend
  · rw [hcode]
    exact (neverMeet_test hmark hfilter hcondition).mono (part_of_testLine _)
  · rw [List.any_eq_false] at hwrites
    exact Action.neverMeet_statements hmark (Bool.eq_false_iff.mpr (hwrites action haction)) hcodes
      _ hcode

end Reaction

end Absence

section Presence

private theorem part_of_intercalate {separator text : String} {texts : List String}
    (h : text ∈ texts) :
    text.toList <:+: (separator.intercalate texts).toList := by
  induction texts with
  | nil => cases h
  | cons first rest ih =>
    by_cases hrest : rest = []
    · rw [hrest, List.mem_singleton] at h
      have hsingle : separator.intercalate (first :: rest) = text := by
        rw [hrest, h, String.intercalate_singleton]
      exact hsingle ▸ List.infix_rfl
    · rw [String.intercalate_cons_of_ne_nil hrest, String.toList_append]
      rcases List.mem_cons.mp h with rfl | hmem
      · rw [String.toList_append]
        exact (List.infix_append_left).trans List.infix_append_left
      · exact (ih hmem).trans List.infix_append_right

private theorem Line.part_of_textOf {lines : List Line} {line : Line} (h : line ∈ lines) :
    line.code.toList <:+: (textOf lines).toList := by
  induction lines with
  | nil => cases h
  | cons first rest ih =>
    rw [toList_textOf_cons]
    rcases List.mem_cons.mp h with rfl | hmem
    · exact (part_append_right _ _).trans List.infix_append_left
    · exact (ih hmem).trans ((List.suffix_cons _ _).isInfix.trans List.infix_append_right)

private theorem Clause.text_state (slot : Nat) (bound : Int32) :
    Clause.text ⟨.state slot, .equal, bound⟩ =
      s!"state[{slot}] ==" ++ (" " ++ decimal bound) := by
  change "state[" ++ slot.repr ++ "]" ++ " " ++ "==" ++ " " ++ decimal bound =
    "state[" ++ slot.repr ++ "] ==" ++ (" " ++ decimal bound)
  rw [show "] ==" = "]" ++ " " ++ "==" by decide]
  simp only [String.append_assoc]

private theorem StateFilter.exists_read {filter : StateFilter} (h : filter.isSet = true) :
    ∃ clause ∈ filter.clauses, ∃ slot < stateSlots,
      s!"state[{slot}] ==".toList <:+: clause.text.toList := by
  obtain ⟨⟨operand, comparison, bound⟩, hclause⟩ :=
    List.exists_mem_of_ne_nil _ (StateFilter.clauses_ne_nil h)
  obtain ⟨slot, hslot, hoperand, hcomparison⟩ := exists_slot_of_mem_clauses _ hclause
  refine ⟨_, hclause, slot, hslot, ?_⟩
  obtain rfl : operand = .state slot := hoperand
  obtain rfl : comparison = .equal := hcomparison
  rw [Clause.text_state]
  exact part_append_left _ _

private theorem exists_stateWrite {slots : Vector StateSlot stateSlots}
    (h : slots.toList.any (· ≠ .any) = true) :
    ∃ code ∈ stateWrites slots.toList, ∃ slot < stateSlots,
      s!"new_state[{slot}] =".toList <:+: code.toList := by
  have hne : stateWrites slots.toList ≠ [] := by
    rw [Ne, stateWrites_eq_nil_iff, h]
    decide
  obtain ⟨code, hcode⟩ := List.exists_mem_of_ne_nil _ hne
  refine ⟨code, hcode, ?_⟩
  revert code
  rw [stateWrites, forall_mem_filterMap_zipIdx]
  intro slot hslot code hwrite
  obtain ⟨bit, _, rfl⟩ := Option.map_eq_some_iff.mp hwrite
  have hcode : s!"new_state[{slot}] = {decimal bit}" =
      s!"new_state[{slot}] =" ++ (" " ++ decimal bit) := by
    change "new_state[" ++ slot.repr ++ "] = " ++ decimal bit =
      "new_state[" ++ slot.repr ++ "] =" ++ (" " ++ decimal bit)
    rw [show "] = " = "] =" ++ " " by decide]
    simp only [String.append_assoc]
  refine ⟨slot, hslot, ?_⟩
  rw [hcode]
  exact part_append_left _ _

private theorem mentions_of_read {text : String} {slot : Nat}
    (h : s!"state[{slot}] ==".toList <:+: text.toList) : MentionsState text := by
  refine List.IsInfix.trans ?_ h
  change "state[".toList <:+: ("state[" ++ slot.repr ++ "] ==").toList
  exact (part_append_left _ _).trans (part_append_left _ _)

private theorem part_of_write (slot : Nat) :
    "new_state[".toList <:+: s!"new_state[{slot}] =".toList := by
  change "new_state[".toList <:+: ("new_state[" ++ slot.repr ++ "] =").toList
  exact (part_append_left _ _).trans (part_append_left _ _)

private theorem mentions_of_write {text : String} {slot : Nat}
    (h : s!"new_state[{slot}] =".toList <:+: text.toList) : MentionsState text := by
  have hname : "state[".toList <:+: "new_state[".toList := ⟨"new_".toList, [], by decide⟩
  exact hname.trans ((part_of_write slot).trans h)

end Presence

namespace Reaction

variable {reaction : Reaction} {branch : Branch}

private theorem exists_condition_of_filter {filter : StateFilter}
    (hfilter : reaction.stateFilter = some filter) (hset : filter.isSet = true) :
    ∃ clauses, reaction.condition? = some clauses ∧ filter.clauses ⊆ clauses := by
  rw [condition?, hfilter]
  split
  · exact ⟨_, rfl, List.subset_append_right _ _⟩
  · rw [Option.filter_some_pos hset]
    exact ⟨_, rfl, List.Subset.refl _⟩

private theorem mem_testLines_of_condition (h : reaction.branch = .ok branch)
    {clauses : List Clause} (hcondition : reaction.condition? = some clauses) :
    testLine (Clause.testOf clauses) ∈ testLines branch.text := by
  rw [testLines_of_branch h, hcondition]
  exact List.mem_singleton_self _

private theorem part_of_condition (h : reaction.branch = .ok branch) {clauses : List Clause}
    (hcondition : reaction.condition? = some clauses) :
    (Clause.testOf clauses).toList <:+: branch.text.toList := by
  obtain ⟨body, _, heq⟩ := lines_of_condition h hcondition
  have hline : (⟨1, "if " ++ Clause.testOf clauses ++ " then"⟩ : Line) ∈ branch.lines := by
    simp [heq]
  have htest : (Clause.testOf clauses).toList <:+:
      ("if " ++ Clause.testOf clauses ++ " then").toList :=
    (part_append_right _ _).trans (part_append_left _ _)
  have hcode := Line.part_of_textOf hline
  exact htest.trans hcode

private theorem exists_line_of_action (h : reaction.branch = .ok branch) {action : Action}
    (haction : action ∈ reaction.actions) :
    ∃ codes, action.statements = .ok codes ∧
      ∀ code ∈ codes, ∃ line ∈ branch.lines, line.code = code := by
  obtain ⟨depth, body, hbody, hsubset⟩ : ∃ depth body,
      Branch.actionLines reaction.actions depth = .ok body ∧ body ⊆ branch.lines := by
    cases hcondition : reaction.condition? with
    | none =>
      obtain ⟨body, hbody, heq⟩ := lines_of_no_condition h hcondition
      exact ⟨_, body, hbody, by simp [heq]⟩
    | some clauses =>
      obtain ⟨body, hbody, heq⟩ := lines_of_condition h hcondition
      refine ⟨_, body, hbody, fun line hline => ?_⟩
      simp [heq, hline]
  rw [Branch.actionLines, map_eq_ok] at hbody
  obtain ⟨written, hwritten, rfl⟩ := hbody
  obtain ⟨lines, hlines, hmem⟩ := exists_of_mem_forall₂ (mapM_eq_ok.mp hwritten).flip haction
  change action.lines depth = .ok lines at hmem
  simp only [Action.lines, bind_eq_ok, pure_eq_ok] at hmem
  obtain ⟨codes, hcodes, rfl⟩ := hmem
  refine ⟨codes, hcodes, fun code hcode => ?_⟩
  exact ⟨⟨depth, code⟩, hsubset (List.mem_flatten.mpr ⟨_, hlines, List.mem_map_of_mem hcode⟩), rfl⟩

/-- A filter that asks for something is part of the test of the rule. -/
theorem exists_read_of_filter (h : reaction.stateFilter.any StateFilter.isSet = true) :
    ∃ clauses, reaction.condition? = some clauses ∧ ∃ slot < stateSlots,
      s!"state[{slot}] ==".toList <:+: (Clause.testOf clauses).toList := by
  obtain ⟨filter, hfilter, hset⟩ := (Option.any_eq_true _ _).mp h
  obtain ⟨clause, hclause, slot, hslot, hread⟩ := filter.exists_read hset
  obtain ⟨clauses, hcondition, hsubset⟩ := exists_condition_of_filter hfilter hset
  refine ⟨clauses, hcondition, slot, hslot, hread.trans ?_⟩
  exact part_of_intercalate (List.mem_map_of_mem (hsubset hclause))

private theorem writesState_of_action (h : reaction.branch = .ok branch)
    (hwrites : reaction.actions.any Action.writesState = true) : WritesState branch.text := by
  obtain ⟨action, haction, hwrite⟩ := List.any_eq_true.mp hwrites
  obtain ⟨codes, hcodes, hlines⟩ := exists_line_of_action h haction
  rw [Action.writesState, Bool.and_eq_true] at hwrite
  cases action with
  | setState slots =>
    cases hcodes
    obtain ⟨code, hcode, slot, hslot, hpart⟩ := exists_stateWrite hwrite.2
    obtain ⟨line, hline, rfl⟩ := hlines code hcode
    exact ⟨slot, hslot, hpart.trans (Line.part_of_textOf hline)⟩
  | _ => cases hwrite.1

private theorem readsState_iff (h : reaction.branch = .ok branch) :
    reaction.stateFilter.any StateFilter.isSet = true ↔ ReadsState branch.text := by
  constructor
  · intro hasks
    obtain ⟨clauses, hcondition, slot, hslot, hread⟩ := exists_read_of_filter hasks
    refine ⟨_, mem_testLines_of_condition h hcondition, slot, hslot, ?_⟩
    exact hread.trans (test_part_of_testLine _)
  · rintro ⟨line, hline, slot, _, hread⟩
    by_contra hunset
    rw [Bool.not_eq_true] at hunset
    rw [testLines_of_branch h, Option.mem_toList] at hline
    obtain ⟨clauses, hcondition, rfl⟩ := Option.map_eq_some_iff.mp hline
    have hmark : ('e', '[') ∈ stateMarks := by decide
    have hnever : NeverMeet 'e' '[' (testLine (Clause.testOf clauses)).toList :=
      neverMeet_test hmark (.inr hunset) hcondition
    exact hnever.absent (by decide) (mentions_of_read hread)

private theorem writesState_iff (h : reaction.branch = .ok branch) :
    reaction.actions.any Action.writesState = true ↔ WritesState branch.text := by
  refine ⟨writesState_of_action h, ?_⟩
  rintro ⟨slot, _, hwrite⟩
  by_contra hnone
  rw [Bool.not_eq_true] at hnone
  have hmark : ('_', 's') ∈ stateMarks := by decide
  have hnever : NeverMeet '_' 's' branch.text.toList :=
    neverMeet_branch hmark h (.inl rfl) hnone
  exact hnever.absent (by decide) ((part_of_write slot).trans hwrite)

private theorem mentionsState_iff (h : reaction.branch = .ok branch) :
    (reaction.stateFilter.any StateFilter.isSet = true ∨
      reaction.actions.any Action.writesState = true) ↔ MentionsState branch.text := by
  constructor
  · rintro (hasks | hwrites)
    · obtain ⟨clauses, hcondition, slot, _, hread⟩ := exists_read_of_filter hasks
      exact mentions_of_read (hread.trans (part_of_condition h hcondition))
    · obtain ⟨slot, _, hwrite⟩ := writesState_of_action h hwrites
      exact mentions_of_write hwrite
  · intro hmentions
    by_contra hnone
    simp only [not_or, Bool.not_eq_true] at hnone
    have hmark : ('e', '[') ∈ stateMarks := by decide
    have hnever : NeverMeet 'e' '[' branch.text.toList :=
      neverMeet_branch hmark h (.inr hnone.1) hnone.2
    exact hnever.absent (by decide) hmentions

end Reaction

private theorem Card.isStateWrite_of_toAction {card : Card} {action : Action}
    (h : card.toAction = .ok action) : card.isStateWrite = action.writesState := by
  rw [isStateWrite, Action.writesState, hasNonDefaultValue_of_toAction h]
  congr 1
  rw [Bool.eq_iff_iff, decide_eq_true_iff, knownKind?_eq_some_iff, isSetState_iff_of_toAction h]

namespace Rule

variable {rule : Rule} {reaction : Reaction} {advancedMode : Bool}

private theorem any_isStateWrite_iff (h : rule.toReaction advancedMode = .ok reaction) :
    rule.actions.any Card.isStateWrite = true ↔
      reaction.actions.any Action.writesState = true := by
  obtain ⟨_, _, _, hactions, _⟩ := read_eq_ok.mp (toReaction_eq_ok.mp h).1
  rw [List.any_eq_true, List.any_eq_true]
  apply exists_mem_iff_of_forall₂ (mapM_eq_ok.mp hactions)
  intro card action hcard
  rw [Card.isStateWrite_of_toAction hcard]

private theorem tellsStateUse (hread : rule.toReaction advancedMode = .ok reaction)
    {branch : Branch}
    (hbranch : reaction.branch = .ok branch) : rule.TellsStateUse branch.text := by
  have hfilter := filter_hasNonDefaultValue hread
  have hwrites := any_isStateWrite_iff hread
  constructor
  case reads_iff => rw [hfilter, Reaction.readsState_iff hbranch]
  case writes_iff => rw [hwrites, Reaction.writesState_iff hbranch]
  case mentions_iff =>
    rw [isAnyAdvancedFeature, Bool.or_eq_true, hwrites, hfilter, Reaction.mentionsState_iff hbranch]

end Rule

namespace Program

variable {program : Program} {script : Script}

private theorem tellsStateUse_of_compile (h : program.compile = .ok script) {number : Nat}
    {rule : Rule} (hrule : program.rules[number]? = some rule) :
    ∃ code, script.codeOfRule? number = some code ∧ rule.TellsStateUse code := by
  obtain ⟨reaction, branch, hread, hbranch, hcode⟩ := exists_codeOfRule h hrule
  exact ⟨branch.text, hcode, Rule.tellsStateUse hread hbranch⟩

private theorem isAnyAdvancedFeature_iff (h : program.compile = .ok script) :
    program.isAnyAdvancedFeature = true ↔ ∃ number < program.rules.length, ∃ code,
      script.codeOfRule? number = some code ∧ MentionsState code := by
  rw [isAnyAdvancedFeature, List.any_eq_true]
  constructor
  · rintro ⟨rule, hrule, hfeature⟩
    obtain ⟨number, hnumber, rfl⟩ := List.mem_iff_getElem.mp hrule
    obtain ⟨code, hcode, htells⟩ := tellsStateUse_of_compile h (List.getElem?_eq_getElem hnumber)
    exact ⟨number, hnumber, code, hcode, htells.mentions_iff.mp hfeature⟩
  · rintro ⟨number, hnumber, code, hcode, hmentions⟩
    obtain ⟨code', hcode', htells⟩ := tellsStateUse_of_compile h (List.getElem?_eq_getElem hnumber)
    obtain rfl : code' = code := Option.some.inj (hcode'.symm.trans hcode)
    exact ⟨_, List.getElem_mem hnumber, htells.mentions_iff.mpr hmentions⟩

/-- A rule uses the state by its cards exactly if it does by its code, and so does a program. -/
theorem advanced_features_name_state (h : program.compile = .ok script) :
    (∀ (number : Nat) (rule : Rule), program.rules[number]? = some rule →
      ∃ code, script.codeOfRule? number = some code ∧ rule.TellsStateUse code) ∧
    (program.isAnyAdvancedFeature = true ↔ ∃ number < program.rules.length, ∃ code,
      script.codeOfRule? number = some code ∧ MentionsState code) ∧
    (program.isAnyAdvancedFeature = false → ∀ number < program.rules.length, ∃ code,
      script.codeOfRule? number = some code ∧ ¬ReadsState code ∧ ¬WritesState code) := by
  refine ⟨fun _ _ => tellsStateUse_of_compile h, isAnyAdvancedFeature_iff h, ?_⟩
  intro hnone number hnumber
  obtain ⟨code, hcode, htells⟩ := tellsStateUse_of_compile h (List.getElem?_eq_getElem hnumber)
  have hrule := List.any_eq_false.mp hnone _ (List.getElem_mem hnumber)
  rw [Rule.isAnyAdvancedFeature, Bool.or_eq_true, not_or, htells.reads_iff,
    htells.writes_iff] at hrule
  exact ⟨code, hcode, hrule⟩

/-- The second rule asks for two state bits and writes two. The first one has nothing to do with the
state. -/
theorem advanced_features_name_state_of_proximityAndRoll :
    proximityAndRoll.compile = .ok proximityAndRollScript ∧
      (∀ (number : Nat) (rule : Rule), proximityAndRoll.rules[number]? = some rule →
        ∃ code, proximityAndRollScript.codeOfRule? number = some code ∧
          rule.TellsStateUse code) ∧
      (proximityAndRoll.isAnyAdvancedFeature = true ↔
        ∃ number < proximityAndRoll.rules.length, ∃ code,
          proximityAndRollScript.codeOfRule? number = some code ∧ MentionsState code) ∧
      (proximityAndRoll.isAnyAdvancedFeature = false →
        ∀ number < proximityAndRoll.rules.length, ∃ code,
          proximityAndRollScript.codeOfRule? number = some code ∧
            ¬ReadsState code ∧ ¬WritesState code) := by
  have hcompile : proximityAndRoll.compile = .ok proximityAndRollScript := by decide +kernel
  exact ⟨hcompile, advanced_features_name_state hcompile⟩

end Program

end VisualRules
