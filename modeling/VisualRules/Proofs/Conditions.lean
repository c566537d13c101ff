import VisualRules.Proofs.Brackets
import VisualRules.Proofs.Refusal
import VisualRules.Proofs.RuleTable

/-!
# When a rule tests something

A card asks for something exactly if clauses come of it, and the text of a test is empty only if it
has no clauses. So the code of a rule has a line that begins a test exactly if its event card or its
filter card asks for something, and then it has one such line, with a test on it.
-/

namespace VisualRules

/-- The line begins a test. -/
def BeginsTest (line : String) : Prop := "\tif ".toList <+: line.toList

instance (line : String) : Decidable (BeginsTest line) :=
  inferInstanceAs (Decidable ("\tif ".toList <+: line.toList))

/-- The lines of a text that begin a test. -/
def testLines (text : String) : List String := (linesOf text).filter fun line => BeginsTest line

def testLine (test : String) : String := "\tif " ++ test ++ " then"

/-- The text begins and ends with something else than a blank. -/
structure Unpadded (text : String) : Prop where
  head : ∃ c, text.toList.head? = some c ∧ c ≠ ' '
  last : ∃ c, text.toList.getLast? = some c ∧ c ≠ ' '

/-- The code asks for one test at one place, and ends what it asks the test for. -/
def TestsOnce (code : String) : Prop :=
  ∃ test, testLines code = [testLine test] ∧ test ≠ "" ∧ ¬" and ".toList <+: test.toList ∧
    ¬" and ".toList <:+ test.toList ∧ "\tend\n".toList <:+ code.toList

/-- The event card or the filter card of the rule has a value that is not its neutral one. -/
def Rule.Asks (rule : Rule) : Prop :=
  rule.event.hasNonDefaultValue = true ∨ rule.stateFilter.any Card.hasNonDefaultValue = true

namespace Unpadded

variable {text other : String}

private theorem of_blank_not_mem (h : ' ' ∉ text.toList) (hne : text.toList ≠ []) :
    Unpadded text where
  head := by
    refine ⟨_, List.head?_eq_some_head hne, fun hblank => h ?_⟩
    exact hblank ▸ List.head_mem hne
  last := by
    refine ⟨_, List.getLast?_eq_some_getLast hne, fun hblank => h ?_⟩
    exact hblank ▸ List.getLast_mem hne

private theorem append (h : Unpadded text) (h' : Unpadded other) (between : String) :
    Unpadded (text ++ between ++ other) where
  head := by
    obtain ⟨c, hhead, hc⟩ := h.head
    refine ⟨c, ?_, hc⟩
    rw [String.append_assoc, String.toList_append, List.head?_append, hhead, Option.some_or]
  last := by
    obtain ⟨c, hlast, hc⟩ := h'.last
    refine ⟨c, ?_, hc⟩
    rw [String.toList_append, List.getLast?_append, hlast, Option.some_or]

private theorem intercalate {separator : String} {texts : List String} (hne : texts ≠ [])
    (h : ∀ text ∈ texts, Unpadded text) : Unpadded (separator.intercalate texts) := by
  induction texts with
  | nil => exact absurd rfl hne
  | cons text rest ih =>
    rw [List.forall_mem_cons] at h
    by_cases hrest : rest = []
    · rw [hrest, String.intercalate_singleton]
      exact h.1
    · rw [String.intercalate_cons_of_ne_nil hrest]
      exact h.1.append (ih hrest h.2) separator

private theorem ne_empty (h : Unpadded text) : text ≠ "" := by
  rintro rfl
  obtain ⟨c, hc, _⟩ := h.head
  cases hc

private theorem not_begins (h : Unpadded text) : ¬" and ".toList <+: text.toList := by
  rintro ⟨rest, hrest⟩
  obtain ⟨c, hhead, hc⟩ := h.head
  rw [← hrest] at hhead
  exact hc (Option.some.inj hhead).symm

private theorem not_ends (h : Unpadded text) : ¬" and ".toList <:+ text.toList := by
  rintro ⟨rest, hrest⟩
  obtain ⟨c, hlast, hc⟩ := h.last
  rw [← hrest, List.getLast?_append] at hlast
  exact hc (Option.some.inj hlast).symm

end Unpadded

private theorem toList_decimal_ne_nil (value : Int32) : (decimal value).toList ≠ [] := by
  unfold decimal
  cases value.toInt with
  | ofNat n =>
    rw [show toString (Int.ofNat n) = n.repr from rfl, Nat.toList_repr]
    exact Nat.toDigits_ne_nil
  | negSucc n =>
    rw [show toString (Int.negSucc n) = "-" ++ (n + 1).repr from rfl, String.toList_append]
    exact List.cons_ne_nil _ _

theorem not_mem_repr {c : Char} (hdigit : c.isDigit = false) (n : Nat) : c ∉ n.repr.toList := by
  rw [Nat.toList_repr]
  intro hmem
  rw [Nat.isDigit_of_mem_toDigits (by decide) (by decide) hmem] at hdigit
  cases hdigit

theorem not_mem_decimal {c : Char} (hdigit : c.isDigit = false) (hsign : c ≠ '-') (value : Int32) :
    c ∉ (decimal value).toList := by
  unfold decimal
  cases value.toInt with
  | ofNat n => exact not_mem_repr hdigit n
  | negSucc n =>
    rw [show toString (Int.negSucc n) = "-" ++ (n + 1).repr from rfl, String.toList_append,
      List.mem_append, not_or]
    exact ⟨by simpa using hsign, not_mem_repr hdigit (n + 1)⟩

theorem blank_not_mem_decimal (value : Int32) : ' ' ∉ (decimal value).toList :=
  not_mem_decimal (by decide) (by decide) value

theorem Variable.blank_not_mem_text (operand : Variable) : ' ' ∉ operand.text.toList := by
  have hindexed {name : String} (h : ' ' ∉ name.toList) (index : Nat) :
      ' ' ∉ (name ++ index.repr ++ "]").toList := by
    simp only [String.toList_append, List.mem_append, not_or]
    exact ⟨⟨h, not_mem_repr (by decide) index⟩, by decide⟩
  cases operand with
  | button which => cases which <;> decide
  | horizontal sensor => exact hindexed (by decide) sensor
  | ground sensor => exact hindexed (by decide) sensor
  | angle => decide
  | state slot => exact hindexed (by decide) slot

private theorem Variable.toList_text_ne_nil (operand : Variable) : operand.text.toList ≠ [] := by
  have hindexed (name : String) (index : Nat) : (name ++ index.repr ++ "]").toList ≠ [] := by
    rw [String.toList_append]
    exact List.append_ne_nil_of_right_ne_nil _ (by decide)
  cases operand with
  | button which => cases which <;> decide
  | horizontal sensor => exact hindexed _ sensor
  | ground sensor => exact hindexed _ sensor
  | angle => decide
  | state slot => exact hindexed _ slot

namespace Clause

theorem unpadded_text (clause : Clause) : Unpadded clause.text := by
  have hoperand : Unpadded clause.operand.text :=
    .of_blank_not_mem clause.operand.blank_not_mem_text clause.operand.toList_text_ne_nil
  have hbound : Unpadded (decimal clause.bound) :=
    .of_blank_not_mem (blank_not_mem_decimal _) (toList_decimal_ne_nil _)
  have hall := hoperand.append hbound (" " ++ clause.comparison.text ++ " ")
  rwa [← String.append_assoc, ← String.append_assoc] at hall

private theorem unpadded_testOf {clauses : List Clause} (hne : clauses ≠ []) :
    Unpadded (testOf clauses) := by
  apply Unpadded.intercalate (by simpa using hne)
  intro text htext
  obtain ⟨clause, _, rfl⟩ := List.mem_map.mp htext
  exact clause.unpadded_text

private theorem testOf_eq_empty_iff {clauses : List Clause} :
    testOf clauses = "" ↔ clauses = [] := by
  constructor
  · intro hempty
    by_contra hne
    exact (unpadded_testOf hne).ne_empty hempty
  · rintro rfl
    rfl

end Clause

section Holds

variable {readings : Variable → Int} {operand : Variable} {bound : Int32}

theorem Clause.holds_less :
    Clause.holds readings ⟨operand, .less, bound⟩ = true ↔ readings operand < bound.toInt := by
  rw [Clause.holds, Comparison.holds, decide_eq_true_iff]

theorem Clause.holds_greater :
    Clause.holds readings ⟨operand, .greater, bound⟩ = true ↔ bound.toInt < readings operand := by
  rw [Clause.holds, Comparison.holds, decide_eq_true_iff]

theorem Clause.holds_equal :
    Clause.holds readings ⟨operand, .equal, bound⟩ = true ↔ readings operand = bound.toInt := by
  rw [Clause.holds, Comparison.holds, decide_eq_true_iff]

end Holds

theorem forall_mem_filterMap_zipIdx {α β : Type} {n : Nat} {xs : Vector α n}
    {f : α × Nat → Option β} {p : β → Prop} :
    (∀ y ∈ xs.toList.zipIdx.filterMap f, p y) ↔
      ∀ (index : Nat) (h : index < n), ∀ y ∈ f (xs[index], index), p y := by
  constructor
  · intro hall index hindex y hy
    have hmem : (xs[index], index) ∈ xs.toList.zipIdx :=
      List.mk_mem_zipIdx_iff_getElem?.mpr (by simp)
    exact hall y (List.mem_filterMap.mpr ⟨_, hmem, hy⟩)
  · intro hall y hy
    obtain ⟨⟨x, index⟩, hmem, hy⟩ := List.mem_filterMap.mp hy
    obtain ⟨hindex, rfl⟩ := List.getElem?_eq_some_iff.mp (List.mk_mem_zipIdx_iff_getElem?.mp hmem)
    exact hall index (by simpa using hindex) y (by simpa using hy)

theorem StateFilter.exists_slot_of_mem_clauses {filter : StateFilter} :
    ∀ clause ∈ filter.clauses, ∃ slot < stateSlots,
      clause.operand = .state slot ∧ clause.comparison = .equal := by
  rw [clauses, forall_mem_filterMap_zipIdx]
  intro slot hslot clause hclause
  obtain ⟨bit, _, rfl⟩ := Option.map_eq_some_iff.mp hclause
  exact ⟨slot, hslot, rfl, rfl⟩

section Lines

private theorem IsStatement.not_beginsTest {code : String} (h : IsStatement code) (depth : Nat) :
    ¬BeginsTest (Line.content ⟨depth + 1, code⟩) := by
  rintro ⟨after, hafter⟩
  have hcontent : (Line.content ⟨depth + 1, code⟩).toList =
      '\t' :: (List.replicate depth '\t' ++ code.toList) := by
    simp [Line.content, List.replicate_succ]
  rw [hcontent] at hafter
  have hrest : 'i' :: 'f' :: ' ' :: after = List.replicate depth '\t' ++ code.toList :=
    List.tail_eq_of_cons_eq hafter
  cases depth with
  | zero =>
    have hhead : code.toList.head? = some 'i' := (congrArg List.head? hrest).symm
    exact h.head?_ne 'i' (by decide) hhead
  | succ depth => exact absurd (List.head_eq_of_cons_eq hrest) (by decide)

private theorem filter_beginsTest_of_statements {lines : List Line}
    (h : ∀ line ∈ lines, 0 < line.depth ∧ IsStatement line.code) :
    (lines.map Line.content).filter (fun line => BeginsTest line) = [] := by
  rw [List.filter_eq_nil_iff, List.forall_mem_map]
  rintro ⟨depth, code⟩ hline
  obtain ⟨hdepth, hcode⟩ := h _ hline
  obtain ⟨depth, rfl⟩ := Nat.exists_eq_succ_of_ne_zero (Nat.pos_iff_ne_zero.mp hdepth)
  rw [decide_eq_true_iff]
  exact hcode.not_beginsTest depth

theorem content_test (test : String) :
    Line.content ⟨1, "if " ++ test ++ " then"⟩ = testLine test := by
  apply String.toList_injective
  simp [Line.content, testLine]

private theorem beginsTest_testLine (test : String) : BeginsTest (testLine test) := by
  rw [BeginsTest, testLine, String.toList_append, String.toList_append]
  exact ⟨_, (List.append_assoc _ _ _).symm⟩

end Lines

namespace Reaction

variable {reaction : Reaction} {branch : Branch} {clauses : List Clause}

private theorem isConditional_eq (reaction : Reaction) :
    reaction.isConditional = reaction.condition?.isSome := by
  rw [isConditional, test?_eq, Option.isSome_map]

private theorem isConditional_iff (reaction : Reaction) :
    reaction.isConditional = true ↔
      reaction.event.isSet = true ∨ reaction.stateFilter.any StateFilter.isSet = true := by
  rw [isConditional_eq, condition?]
  by_cases hset : reaction.event.isSet = true
  · simp [hset]
  · rw [if_neg hset, Option.isSome_map, Option.isSome_filter]
    simp [hset]

/-- The code of a rule that tests something has one line that begins a test. Other code has none. -/
theorem testLines_of_branch (h : reaction.branch = .ok branch) :
    testLines branch.text =
      (reaction.condition?.map fun clauses => testLine (Clause.testOf clauses)).toList := by
  have hlines : linesOf branch.text = branch.lines.map Line.content ++ [""] :=
    Line.linesOf_textOf fun _ hline => (isCode_of_branch h hline).newline_not_mem
  have hpreparation :
      (reaction.preparation.map Line.content).filter (fun line => BeginsTest line) = [] := by
    apply filter_beginsTest_of_statements
    intro line hline
    obtain ⟨hdepth, hcode, _⟩ := isStatement_of_mem_preparation hline
    exact ⟨hdepth ▸ Nat.one_pos, hcode⟩
  have hactions {depth : Nat} {body : List Line} (hdepth : 0 < depth)
      (hbody : Branch.actionLines reaction.actions depth = .ok body) :
      (body.map Line.content).filter (fun line => BeginsTest line) = [] := by
    apply filter_beginsTest_of_statements
    intro line hline
    obtain ⟨hdepth', hcode⟩ := statement_of_actionLines hbody line hline
    exact ⟨hdepth' ▸ hdepth, hcode⟩
  rw [testLines, hlines, List.filter_append]
  cases hcondition : reaction.condition? with
  | none =>
    obtain ⟨body, hbody, heq⟩ := lines_of_no_condition h hcondition
    rw [heq, List.map_append, List.filter_append, hpreparation, hactions Nat.one_pos hbody]
    decide
  | some clauses =>
    obtain ⟨body, hbody, heq⟩ := lines_of_condition h hcondition
    have htest := List.filter_cons_of_pos (p := fun line => decide (BeginsTest line))
      (l := body.map Line.content) (decide_eq_true (beginsTest_testLine (Clause.testOf clauses)))
    have hlast : (([⟨1, "end"⟩] : List Line).map Line.content).filter
        (fun line => BeginsTest line) = [] := by decide
    rw [heq, List.map_append, List.map_append, List.map_cons, content_test]
    simp only [List.filter_append, hpreparation, htest, hactions Nat.two_pos hbody, hlast]
    rfl

private theorem ends_of_condition (h : reaction.branch = .ok branch)
    (hcondition : reaction.condition? = some clauses) :
    "\tend\n".toList <:+ branch.text.toList := by
  obtain ⟨body, _, heq⟩ := lines_of_condition h hcondition
  rw [Branch.text, heq, Line.toList_textOf_append]
  exact List.suffix_append _ _

private theorem testsOnce_of_condition (h : reaction.branch = .ok branch)
    (hcondition : reaction.condition? = some clauses) : TestsOnce branch.text := by
  have htest := Clause.unpadded_testOf (clauses_ne_nil hcondition)
  refine ⟨_, ?_, htest.ne_empty, htest.not_begins, htest.not_ends, ends_of_condition h hcondition⟩
  rw [testLines_of_branch h, hcondition]
  rfl

end Reaction

namespace Card

variable {card : Card}

private theorem role_of_kindFor {role : Role} {kind : Kind} (h : card.kindFor role = .ok kind) :
    card.role = role := by
  by_contra hrole
  rw [kindFor_of_role hrole] at h
  cases h

private theorem hasNonDefaultValue_of_toEvent {event : Event} (h : card.toEvent = .ok event) :
    card.hasNonDefaultValue = event.isSet := by
  obtain ⟨kind, hkind, _⟩ := bind_eq_ok.mp (show card.kindFor .event >>= _ = _ from h)
  rw [hasNonDefaultValue, role_of_kindFor hkind]
  simp only [h]

private theorem hasNonDefaultValue_of_toFilter {filter : StateFilter}
    (h : card.toFilter = .ok filter) :
    card.hasNonDefaultValue = filter.isSet := by
  obtain ⟨kind, hkind, _⟩ := bind_eq_ok.mp (show card.kindFor .stateFilter >>= _ = _ from h)
  rw [hasNonDefaultValue, role_of_kindFor hkind]
  simp only [h]

theorem hasNonDefaultValue_of_toAction {action : Action} (h : card.toAction = .ok action) :
    card.hasNonDefaultValue = action.isSet := by
  obtain ⟨kind, hkind, _⟩ := bind_eq_ok.mp (show card.kindFor .action >>= _ = _ from h)
  rw [hasNonDefaultValue, role_of_kindFor hkind]
  simp only [h]

end Card

namespace Rule

variable {rule : Rule} {reaction : Reaction} {advancedMode : Bool}

theorem filter_hasNonDefaultValue (h : rule.toReaction advancedMode = .ok reaction) :
    rule.stateFilter.any Card.hasNonDefaultValue = reaction.stateFilter.any StateFilter.isSet := by
  obtain ⟨_, _, hfilter, _⟩ := read_eq_ok.mp (toReaction_eq_ok.mp h).1
  generalize rule.stateFilter = card?, reaction.stateFilter = filter? at hfilter
  cases hfilter with
  | none => rfl
  | some hcard => exact Card.hasNonDefaultValue_of_toFilter hcard

private theorem isConditional_iff_asks (h : rule.toReaction advancedMode = .ok reaction) :
    reaction.isConditional = true ↔ rule.Asks := by
  rw [reaction.isConditional_iff, Asks, filter_hasNonDefaultValue h,
    Card.hasNonDefaultValue_of_toEvent (toEvent_of_toReaction h)]

end Rule

private theorem Event.isSet_iff_test (event : Event) : event.isSet = true ↔ event.test ≠ "" := by
  rw [test, Ne, Clause.testOf_eq_empty_iff, event.clauses_eq_nil_iff, Bool.not_eq_false]

private theorem StateFilter.isSet_iff_test (filter : StateFilter) :
    filter.isSet = true ↔ filter.test ≠ "" := by
  rw [test, Ne, Clause.testOf_eq_empty_iff, filter.clauses_eq_nil_iff, Bool.not_eq_false]

namespace Reaction

variable {reaction : Reaction} {branch : Branch}

private theorem exists_beginsTest_iff (h : reaction.branch = .ok branch) :
    (∃ line ∈ linesOf branch.text, BeginsTest line) ↔ reaction.isConditional = true := by
  have htests : (∃ line ∈ linesOf branch.text, BeginsTest line) ↔ testLines branch.text ≠ [] := by
    simp [testLines, List.filter_eq_nil_iff]
  rw [htests, testLines_of_branch h, isConditional_eq]
  cases reaction.condition? with
  | none => exact iff_of_false (by simp) nofun
  | some clauses => exact iff_of_true (by simp) rfl

private theorem testsOnce_of_branch (h : reaction.branch = .ok branch)
    (hbegins : ∃ line ∈ linesOf branch.text, BeginsTest line) : TestsOnce branch.text := by
  have hsome := (exists_beginsTest_iff h).mp hbegins
  rw [isConditional_eq] at hsome
  obtain ⟨clauses, hclauses⟩ := Option.isSome_iff_exists.mp hsome
  exact testsOnce_of_condition h hclauses

end Reaction

namespace Program

/-- All notions of a rule that tests something agree: what the cards say, what is read off them, the
text of the test and the line that it stands on. -/
theorem tests_agree :
    (∀ event : Event, event.isSet = true ↔ event.test ≠ "") ∧
    (∀ filter : StateFilter, (filter.isSet = true ↔ filter.test ≠ "") ∧
      filter.conjunction = if filter.isSet then " and " ++ filter.test else "") ∧
    ∀ (program : Program) (script : Script), program.compile = .ok script →
      ∀ (number : Nat) (rule : Rule), program.rules[number]? = some rule →
        ∃ reaction branch, rule.toReaction program.advancedMode = .ok reaction ∧
          reaction.branch = .ok branch ∧ script.codeOfRule? number = some branch.text ∧
          (branch.conditional = true ↔ rule.Asks) ∧
          ((∃ line ∈ linesOf branch.text, BeginsTest line) ↔ rule.Asks) ∧
          ((∃ line ∈ linesOf branch.text, BeginsTest line) → TestsOnce branch.text) := by
  refine ⟨Event.isSet_iff_test, fun filter => ⟨filter.isSet_iff_test, filter.conjunction_eq⟩, ?_⟩
  intro program script hcompile number rule hrule
  obtain ⟨reaction, branch, hread, hbranch, hcode⟩ := exists_codeOfRule hcompile hrule
  have hasks := Rule.isConditional_iff_asks hread
  refine ⟨reaction, branch, hread, hbranch, hcode, ?_, ?_, Reaction.testsOnce_of_branch hbranch⟩
  · rw [Reaction.conditional_of_branch hbranch]
    exact hasks
  · exact (Reaction.exists_beginsTest_iff hbranch).trans hasks

/-- The robot is rolled to the last step of the scale, where only one side of the band is left, and
two state bits are asked for. -/
def filteredRoll : Rule :=
  ((Rule.ofEvent (.ofKind .accelerometer [1, 4])).withAction
    (.ofKind .setState [2, 9, 0, 1])).withStateFilter (.ofKind .stateFilter [1, 0, 2, 9])

/-- No sensor of the first card is tested, whatever its numbers are. -/
def proximityAndRoll : Program where
  rules := [
    (Rule.ofEvent (.ofKind .proximity [7, 0, 0, 0, 0, 0, -1, 500, 900])).withAction
      (.ofKind .topColor [32, 0, 0]),
    filteredRoll]
  advancedMode := true

def proximityAndRollScript : Script where
  segments := [
    Line.textOf (preamble true (.insert .empty .tiltAngle)) ++ (Segment.header .proximity).text,
    "\tcall leds.top(32,0,0)\n",
    (Segment.header .tilt).text,
    "\tcall math.atan2(angle, acc[0], acc[2])\n" ++
      "\tif angle < -14336 and state[0] == 1 and state[2] == 0 then\n" ++
      "\t\tnew_state[0] = 0\n\t\tnew_state[3] = 1\n\tend\n",
    Segment.stateSync.text]
  rulePositions := [1, 3]
  features := .insert .empty .tiltAngle

theorem tests_agree_of_filteredRoll :
    proximityAndRoll.compile = .ok proximityAndRollScript ∧
      proximityAndRoll.rules[1]? = some filteredRoll ∧
      ∃ reaction branch, filteredRoll.toReaction true = .ok reaction ∧
        reaction.branch = .ok branch ∧
        proximityAndRollScript.codeOfRule? 1 = some branch.text ∧
        (branch.conditional = true ↔ filteredRoll.Asks) ∧
        ((∃ line ∈ linesOf branch.text, BeginsTest line) ↔ filteredRoll.Asks) ∧
        ((∃ line ∈ linesOf branch.text, BeginsTest line) → TestsOnce branch.text) := by
  have hcompile : proximityAndRoll.compile = .ok proximityAndRollScript := by decide +kernel
  exact ⟨hcompile, rfl, tests_agree.2.2 _ _ hcompile 1 _ rfl⟩

end Program

end VisualRules
