import VisualRules.Proofs.Clauses
import VisualRules.Proofs.Resolution

/-!
# What stands on a line

The code of a line is a few fixed words with numbers between them, so it is a single line of ASCII
characters. Every statement of an action stands on a line of its own, and the script of a rule is
such lines, between an `if` and an `end` if the rule tests something.
-/

namespace VisualRules

def isNumeralChar (c : Char) : Bool := c.isDigit || ['-', ',', ' '].contains c

/-- Numbers, one or more, and what separates them. -/
def IsNumeral (text : String) : Prop := text.toList.all isNumeralChar = true

def isPrintable (c : Char) : Bool := ' ' ≤ c && c ≤ '~'

/-- The text is a single line of ASCII characters. -/
def IsPrintable (text : String) : Prop := text.toList.all isPrintable = true

instance (text : String) : Decidable (IsPrintable text) :=
  inferInstanceAs (Decidable (text.toList.all isPrintable = true))

def isCodeChar (c : Char) : Bool := isPrintable c && c ≠ '#'

/-- The code is a single line of ASCII characters, and no comment stands on it. -/
def IsCode (code : String) : Prop := code.toList.all isCodeChar = true

instance (code : String) : Decidable (IsCode code) :=
  inferInstanceAs (Decidable (code.toList.all isCodeChar = true))

/-- The code is a single line, and it does not begin like a declaration, a condition or the end of
one. -/
structure IsStatement (code : String) : Prop where
  newline_not_mem : '\n' ∉ code.toList
  head_mem : code.toList.head?.any (['m', 'c', 't', 'n'].contains ·) = true

section Numerals

private theorem forall_mem_intercalate {p : Char → Prop} {separator : String} {texts : List String}
    (hseparator : ∀ c ∈ separator.toList, p c) (h : ∀ text ∈ texts, ∀ c ∈ text.toList, p c) :
    ∀ c ∈ (separator.intercalate texts).toList, p c := by
  induction texts with
  | nil => simp
  | cons text rest ih =>
    rw [List.forall_mem_cons] at h
    by_cases hrest : rest = []
    · subst hrest
      rw [String.intercalate_singleton]
      exact h.1
    · rw [String.intercalate_cons_of_ne_nil hrest, String.toList_append, String.toList_append]
      simp only [List.forall_mem_append]
      exact ⟨⟨h.1, hseparator⟩, ih h.2⟩

theorem isNumeral_repr (n : Nat) : IsNumeral n.repr := by
  rw [IsNumeral, Nat.repr_eq_ofList_toDigits, String.toList_ofList, List.all_eq_true]
  intro c hc
  rw [isNumeralChar, Nat.isDigit_of_mem_toDigits (by decide) (by decide) hc, Bool.true_or]

private theorem isNumeral_append {text other : String} (h : IsNumeral text) (h' : IsNumeral other) :
    IsNumeral (text ++ other) := by
  unfold IsNumeral at *
  rw [String.toList_append, List.all_append, h, h', Bool.and_self]

theorem isNumeral_decimal (value : Int32) : IsNumeral (decimal value) := by
  unfold decimal
  cases value.toInt with
  | ofNat n => exact isNumeral_repr n
  | negSucc n => exact isNumeral_append (by unfold IsNumeral; decide) (isNumeral_repr (n + 1))

private theorem isNumeral_intercalate {separator : String} (hseparator : IsNumeral separator)
    (values : List Int32) : IsNumeral (separator.intercalate (values.map decimal)) := by
  apply List.all_eq_true.mpr
  apply forall_mem_intercalate (List.all_eq_true.mp hseparator)
  intro text htext
  obtain ⟨value, _, rfl⟩ := List.mem_map.mp htext
  exact List.all_eq_true.mp (isNumeral_decimal value)

private theorem isNumeral_listed (values : List Int32) : IsNumeral (listed values) :=
  isNumeral_intercalate (by unfold IsNumeral; decide) values

private theorem isNumeral_arguments (color : Color) : IsNumeral color.arguments :=
  isNumeral_intercalate (by unfold IsNumeral; decide) color.values

end Numerals

theorem IsPrintable.newline_not_mem {text : String} (h : IsPrintable text) :
    '\n' ∉ text.toList := fun hmem => absurd (List.all_eq_true.mp h '\n' hmem) (by decide)

namespace IsCode

variable {code other : String}

theorem append (h : IsCode code) (h' : IsCode other) : IsCode (code ++ other) := by
  unfold IsCode at *
  rw [String.toList_append, List.all_append, h, h', Bool.and_self]

theorem isPrintable (h : IsCode code) : IsPrintable code :=
  List.all_eq_true.mpr fun c hc => (Bool.and_eq_true_iff.mp (List.all_eq_true.mp h c hc)).1

theorem newline_not_mem (h : IsCode code) : '\n' ∉ code.toList := h.isPrintable.newline_not_mem

theorem sharp_not_mem (h : IsCode code) : '#' ∉ code.toList := fun hmem =>
  absurd (List.all_eq_true.mp h '#' hmem) (by decide)

end IsCode

private theorem isCodeChar_of_isNumeralChar {c : Char} (h : isNumeralChar c = true) :
    isCodeChar c = true := by
  rw [isNumeralChar, Bool.or_eq_true] at h
  rcases h with hdigit | hother
  · simp only [Char.isDigit, Bool.and_eq_true, decide_eq_true_eq, ge_iff_le] at hdigit
    simp only [isCodeChar, isPrintable, Bool.and_eq_true, decide_eq_true_eq]
    refine ⟨⟨?_, ?_⟩, ?_⟩
    · exact UInt32.le_trans (by decide : (' ' : Char).val ≤ '0'.val) hdigit.1
    · exact UInt32.le_trans hdigit.2 (by decide : ('9' : Char).val ≤ '~'.val)
    · rintro rfl
      exact absurd hdigit.1 (by decide)
  · simp only [List.contains_iff_mem, List.mem_cons, List.not_mem_nil, or_false] at hother
    obtain rfl | rfl | rfl := hother <;> decide

theorem isCode_of_isNumeral {text : String} (h : IsNumeral text) : IsCode text :=
  List.all_eq_true.mpr fun c hc => isCodeChar_of_isNumeralChar (List.all_eq_true.mp h c hc)

private theorem IsStatement.append {before after : String} (h : IsStatement before)
    (hafter : '\n' ∉ after.toList) : IsStatement (before ++ after) where
  newline_not_mem := by simp [h.newline_not_mem, hafter]
  head_mem := by
    obtain ⟨c, hc, hmem⟩ := (Option.any_eq_true _ _).mp h.head_mem
    rw [String.toList_append, List.head?_append, hc, Option.some_or, Option.any_some]
    exact hmem

instance (code : String) : Decidable (IsStatement code) :=
  decidable_of_iff
    ('\n' ∉ code.toList ∧ code.toList.head?.any (['m', 'c', 't', 'n'].contains ·) = true)
    ⟨fun h => ⟨h.1, h.2⟩, fun h => ⟨h.newline_not_mem, h.head_mem⟩⟩

/-- Fixed words in front of numbers and behind them. -/
structure Template where
  before : String
  after : String

namespace Template

/-- The code is the template with numbers in it. -/
def Matches (template : Template) (code : String) : Prop :=
  ∃ numeral, IsNumeral numeral ∧ code = template.before ++ numeral ++ template.after

private theorem matches_before {before numeral : String} (h : IsNumeral numeral) :
    Matches ⟨before, ""⟩ (before ++ numeral) :=
  ⟨numeral, h, String.append_empty.symm⟩

variable {template : Template} {code : String}

private theorem Matches.isCode (h : template.Matches code) (hbefore : IsCode template.before)
    (hafter : IsCode template.after) : IsCode code := by
  obtain ⟨numeral, hnumeral, rfl⟩ := h
  exact (hbefore.append (isCode_of_isNumeral hnumeral)).append hafter

private theorem Matches.isStatement (h : template.Matches code)
    (hbefore : IsStatement template.before)
    (hafter : IsCode template.after) : IsStatement code := by
  obtain ⟨numeral, hnumeral, rfl⟩ := h
  exact (hbefore.append (isCode_of_isNumeral hnumeral).newline_not_mem).append
    hafter.newline_not_mem

end Template

namespace Action

/-- The statements that an action can have, up to the numbers on them. -/
def templates : Action → List Template
  | move _ _ => [⟨"motor.left.target = ", ""⟩, ⟨"motor.right.target = ", ""⟩]
  | topColor _ => [⟨"call leds.top(", ")"⟩]
  | bottomColor _ => [⟨"call leds.bottom.left(", ")"⟩, ⟨"call leds.bottom.right(", ")"⟩]
  | sound _ =>
    [⟨"call math.copy(notes, [", "])"⟩, ⟨"call math.copy(durations, [", "])"⟩,
      ⟨"call sound.freq(notes[", "], durations[0])"⟩, ⟨"note_index = ", ""⟩]
  | timer _ => [⟨"timer.period[0] = ", ""⟩]
  | setState _ => (List.range stateSlots).map fun index => ⟨s!"new_state[{index}] = ", ""⟩

theorem exists_template_of_statements {action : Action} {codes : List String}
    (h : action.statements = .ok codes) :
    ∀ code ∈ codes, ∃ template ∈ action.templates, template.Matches code := by
  cases action with
  | move left right =>
    cases h
    rw [List.forall_mem_cons, List.forall_mem_singleton]
    exact ⟨⟨_, List.mem_cons_self, Template.matches_before (isNumeral_decimal left)⟩,
      ⟨_, List.mem_cons_of_mem _ List.mem_cons_self,
        Template.matches_before (isNumeral_decimal right)⟩⟩
  | topColor color =>
    cases h
    rw [List.forall_mem_singleton]
    exact ⟨_, List.mem_cons_self, _, isNumeral_arguments color, rfl⟩
  | bottomColor color =>
    cases h
    rw [List.forall_mem_cons, List.forall_mem_singleton]
    exact ⟨⟨_, List.mem_cons_self, _, isNumeral_arguments color, rfl⟩,
      ⟨_, List.mem_cons_of_mem _ List.mem_cons_self, _, isNumeral_arguments color, rfl⟩⟩
  | sound notes =>
    simp only [statements, bind_eq_ok, pure_eq_ok] at h
    obtain ⟨frequencies, _, durations, _, rfl⟩ := h
    simp only [List.forall_mem_cons]
    refine ⟨⟨_, .head _, _, isNumeral_listed frequencies, rfl⟩,
      ⟨_, .tail _ (.head _), _, isNumeral_listed durations, rfl⟩,
      ⟨_, .tail _ (.tail _ (.head _)), "0", by unfold IsNumeral; decide, by decide⟩,
      ⟨_, .tail _ (.tail _ (.tail _ (.head _))), "1", by unfold IsNumeral; decide, by decide⟩,
      by simp⟩
  | timer period =>
    cases h
    rw [List.forall_mem_singleton]
    exact ⟨_, List.mem_cons_self, Template.matches_before (isNumeral_decimal period)⟩
  | setState slots =>
    cases h
    intro code hcode
    obtain ⟨⟨slot, index⟩, hmem, hslot⟩ := List.mem_filterMap.mp hcode
    obtain ⟨bit, _, rfl⟩ := Option.map_eq_some_iff.mp hslot
    have hindex : index < stateSlots := by
      rw [← slots.length_toList]
      exact List.snd_lt_of_mem_zipIdx hmem
    exact ⟨_, List.mem_map_of_mem (List.mem_range.mpr hindex),
      Template.matches_before (isNumeral_decimal bit)⟩

private theorem isCode_of_mem_templates {action : Action} : ∀ template ∈ action.templates,
    IsStatement template.before ∧ IsCode template.before ∧ IsCode template.after := by
  cases action <;> (rw [templates]; decide)

theorem isStatement_of_statements {action : Action} {codes : List String}
    (h : action.statements = .ok codes) : ∀ code ∈ codes, IsStatement code := by
  intro code hcode
  obtain ⟨template, htemplate, hmatches⟩ := exists_template_of_statements h code hcode
  obtain ⟨hstatement, _, hafter⟩ := isCode_of_mem_templates template htemplate
  exact hmatches.isStatement hstatement hafter

theorem isCode_of_statements {action : Action} {codes : List String}
    (h : action.statements = .ok codes) : ∀ code ∈ codes, IsCode code := by
  intro code hcode
  obtain ⟨template, htemplate, hmatches⟩ := exists_template_of_statements h code hcode
  obtain ⟨_, hbefore, hafter⟩ := isCode_of_mem_templates template htemplate
  exact hmatches.isCode hbefore hafter

private theorem mem_lines {action : Action} {depth : Nat} {lines : List Line} {line : Line}
    (h : action.lines depth = .ok lines) (hline : line ∈ lines) :
    line.depth = depth ∧ ∃ codes, action.statements = .ok codes ∧ line.code ∈ codes := by
  simp only [Action.lines, bind_eq_ok, pure_eq_ok] at h
  obtain ⟨codes, hcodes, rfl⟩ := h
  obtain ⟨code, hcode, rfl⟩ := List.mem_map.mp hline
  exact ⟨rfl, codes, hcodes, hcode⟩

end Action

theorem Branch.mem_actionLines {actions : List Action} {depth : Nat} {lines : List Line}
    {line : Line} (h : actionLines actions depth = .ok lines) (hline : line ∈ lines) :
    line.depth = depth ∧
      ∃ action ∈ actions, ∃ codes, action.statements = .ok codes ∧ line.code ∈ codes := by
  rw [actionLines, map_eq_ok] at h
  obtain ⟨written, hwritten, rfl⟩ := h
  obtain ⟨one, hone, hmem⟩ := List.mem_flatten.mp hline
  obtain ⟨action, haction, hlines⟩ := exists_of_mem_forall₂ (mapM_eq_ok.mp hwritten) hone
  obtain ⟨hdepth, codes, hcodes, hcode⟩ := Action.mem_lines hlines hmem
  exact ⟨hdepth, action, haction, codes, hcodes, hcode⟩

namespace Reaction

variable {reaction : Reaction} {branch : Branch}

theorem lines_of_condition {clauses : List Clause} (h : reaction.branch = .ok branch)
    (hcondition : reaction.condition? = some clauses) :
    ∃ body, Branch.actionLines reaction.actions 2 = .ok body ∧
      branch.lines = reaction.preparation ++
        ⟨1, "if " ++ Clause.testOf clauses ++ " then"⟩ :: body ++ [⟨1, "end"⟩] := by
  rw [Reaction.branch, test?_eq, hcondition] at h
  simp only [Option.map_some, bind_eq_ok, pure_eq_ok] at h
  obtain ⟨body, hbody, rfl⟩ := h
  exact ⟨body, hbody, rfl⟩

theorem lines_of_no_condition (h : reaction.branch = .ok branch)
    (hcondition : reaction.condition? = none) :
    ∃ body, Branch.actionLines reaction.actions 1 = .ok body ∧
      branch.lines = reaction.preparation ++ body := by
  rw [Reaction.branch, test?_eq, hcondition] at h
  simp only [Option.map_none, bind_eq_ok, pure_eq_ok] at h
  obtain ⟨body, hbody, rfl⟩ := h
  exact ⟨body, hbody, rfl⟩

theorem isStatement_of_mem_preparation {line : Line} (h : line ∈ reaction.preparation) :
    line.depth = 1 ∧ IsStatement line.code ∧ IsCode line.code := by
  unfold preparation Event.preparation at h
  split at h
  · split at h
    · rw [List.mem_singleton.mp h]
      decide
    · rw [List.mem_singleton.mp h]
      decide
    · cases h
  · cases h

end Reaction

private theorem isCode_indexed {name : String} (h : IsCode name) (index : Nat) :
    IsCode (name ++ index.repr ++ "]") :=
  (h.append (isCode_of_isNumeral (isNumeral_repr index))).append (by decide)

private theorem Variable.isCode_text (operand : Variable) : IsCode operand.text := by
  cases operand with
  | button which => cases which <;> decide
  | horizontal sensor => exact isCode_indexed (by decide) sensor
  | ground sensor => exact isCode_indexed (by decide) sensor
  | angle => decide
  | state slot => exact isCode_indexed (by decide) slot

namespace Clause

private theorem isCode_text (clause : Clause) : IsCode clause.text := by
  have hcomparison : IsCode (clause.operand.text ++ " " ++ clause.comparison.text ++ " ") := by
    refine (IsCode.append (clause.operand.isCode_text.append (by decide)) ?_).append (by decide)
    cases clause.comparison <;> decide
  exact hcomparison.append (isCode_of_isNumeral (isNumeral_decimal clause.bound))

private theorem isCode_testOf (clauses : List Clause) : IsCode (testOf clauses) := by
  apply List.all_eq_true.mpr
  apply forall_mem_intercalate (List.all_eq_true.mp (by decide : IsCode " and "))
  intro text htext
  obtain ⟨clause, _, rfl⟩ := List.mem_map.mp htext
  exact List.all_eq_true.mp clause.isCode_text

end Clause

/-- Every line of a rule is code. -/
theorem Reaction.isCode_of_branch {reaction : Reaction} {branch : Branch} {line : Line}
    (h : reaction.branch = .ok branch) (hline : line ∈ branch.lines) : IsCode line.code := by
  have hpreparation (hmem : line ∈ reaction.preparation) : IsCode line.code :=
    (isStatement_of_mem_preparation hmem).2.2
  have hbody {depth : Nat} {body : List Line}
      (hlines : Branch.actionLines reaction.actions depth = .ok body) (hmem : line ∈ body) :
      IsCode line.code := by
    obtain ⟨_, action, _, codes, hcodes, hcode⟩ := Branch.mem_actionLines hlines hmem
    exact Action.isCode_of_statements hcodes _ hcode
  cases hcondition : reaction.condition? with
  | some clauses =>
    obtain ⟨body, hlines, heq⟩ := lines_of_condition h hcondition
    simp only [heq, List.mem_append, List.mem_cons, List.not_mem_nil, or_false] at hline
    rcases hline with (hmem | rfl | hmem) | rfl
    · exact hpreparation hmem
    · exact (IsCode.append (by decide) (Clause.isCode_testOf clauses)).append (by decide)
    · exact hbody hlines hmem
    · decide
  | none =>
    obtain ⟨body, hlines, heq⟩ := lines_of_no_condition h hcondition
    rw [heq, List.mem_append] at hline
    exact hline.elim hpreparation (hbody hlines)

end VisualRules
