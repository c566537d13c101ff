import VisualRules.Proofs.Brackets
import VisualRules.Proofs.SupportCode
import VisualRules.Proofs.Words

/-!
# Names are declared before they are used

The preamble declares what the mode of the program and its support code ask for. Whatever a rule,
the state snapshot or the preamble itself names has been declared above.
-/

namespace VisualRules

namespace Symbol

/-- What follows the name on a line that declares the symbol. -/
def declaration? (symbol : Symbol) (line : String) : Option (List Char) :=
  (line.toList.dropPrefix? (symbol.keyword ++ symbol.name).toList).filter fun rest =>
    !rest.head?.any isWordChar

def isDeclaredOn (symbol : Symbol) (line : String) : Bool := (symbol.declaration? line).isSome

/-- The line uses the symbol. A comment uses nothing, and a declaration does not use the name that
it introduces. -/
def isUsedOn (symbol : Symbol) (line : String) : Bool :=
  line.toList.head? ≠ some '#' &&
    (wordsIn ((symbol.declaration? line).getD line.toList)).contains symbol.name.toList

/-- No line uses the symbol unless a line above declares it. -/
def IsDeclaredFirst (symbol : Symbol) (lines : List String) : Prop :=
  ∀ before line after, lines = before ++ line :: after → symbol.isUsedOn line = true →
    ∃ earlier ∈ before, symbol.isDeclaredOn earlier = true

/-- The preamble declares the symbol in the mode and for the support code. -/
def isProvided (advancedMode : Bool) (features : FeatureSet) : Symbol → Bool
  | angle => features.tiltAngle
  | state | newState | displayState => advancedMode
  | notes | durations | noteIndex | wave => features.sound

section Lines

variable {symbol : Symbol} {line : String} {lines others : List String}

private theorem isDeclaredFirst_of_unused (h : ∀ line ∈ lines, symbol.isUsedOn line = false) :
    symbol.IsDeclaredFirst lines := by
  rintro before line after rfl hused
  rw [h line (by simp)] at hused
  cases hused

private theorem IsDeclaredFirst.append (h : symbol.IsDeclaredFirst lines)
    (hothers : (∃ line ∈ lines, symbol.isDeclaredOn line = true) ∨ symbol.IsDeclaredFirst others) :
    symbol.IsDeclaredFirst (lines ++ others) := by
  intro before line after heq hused
  have hbelow (gap : List String) (hgap : others = gap ++ line :: after) :
      ∃ earlier ∈ lines ++ gap, symbol.isDeclaredOn earlier = true := by
    rcases hothers with ⟨earlier, hmem, hdeclared⟩ | hothers
    · exact ⟨earlier, List.mem_append_left _ hmem, hdeclared⟩
    · obtain ⟨earlier, hmem, hdeclared⟩ := hothers gap line after hgap hused
      exact ⟨earlier, List.mem_append_right _ hmem, hdeclared⟩
  rcases List.append_eq_append_iff.mp heq with ⟨gap, rfl, hgap⟩ | ⟨gap, hlines, hgap⟩
  · exact hbelow gap hgap
  · cases gap with
    | nil =>
      rw [List.append_nil] at hlines
      rw [← hlines, ← List.append_nil lines]
      exact hbelow [] hgap.symm
    | cons first rest =>
      cases hgap
      exact h before line rest hlines hused

private theorem head_of_isDeclaredOn (h : symbol.isDeclaredOn line = true) :
    line.toList.head? = some 'v' ∨ line.toList.head? = some 's' := by
  obtain ⟨rest, hrest⟩ := Option.isSome_iff_exists.mp h
  obtain ⟨opening, hline, hopening⟩ :=
    List.dropPrefix?_eq_some_iff.mp (Option.filter_eq_some_iff.mp hrest).1
  rw [hline, eq_of_beq hopening, List.head?_append_of_ne_nil _ (by cases symbol <;> decide)]
  cases symbol <;> decide

private theorem not_isDeclaredOn {c : Char} (h : line.toList.head? = some c) (hv : c ≠ 'v')
    (hs : c ≠ 's') :
    symbol.isDeclaredOn line = false := by
  rw [Bool.eq_false_iff]
  intro hdeclared
  rcases head_of_isDeclaredOn hdeclared with hhead | hhead
  · rw [h, Option.some.injEq] at hhead
    exact hv hhead
  · rw [h, Option.some.injEq] at hhead
    exact hs hhead

private theorem not_isDeclaredOn_blank (symbol : Symbol) : symbol.isDeclaredOn "" = false := by
  cases symbol <;> decide

private theorem mem_symbolsIn_of_isUsedOn (hdeclared : symbol.isDeclaredOn line = false)
    (h : symbol.isUsedOn line = true) : symbol ∈ symbolsIn line := by
  rw [isDeclaredOn, Option.isSome_eq_false_iff, Option.isNone_iff_eq_none] at hdeclared
  rw [isUsedOn, hdeclared, Bool.and_eq_true, List.contains_iff_mem] at h
  exact mem_symbolsIn.mpr h.2

end Lines

end Symbol

private theorem symbolsIn_content (line : Line) : symbolsIn line.content = symbolsIn line.code := by
  rw [symbolsIn, Line.content, String.toList_append, String.toList_ofList,
    wordsIn_replicate_append (by decide), symbolsIn]

section Handlers

variable {passages : List Passage} {handlers : List Handler} {symbol : Symbol}

private theorem not_isDeclaredOn_of_handlers :
    ∀ line ∈ (linesOfHandlers handlers passages).map Line.content,
      symbol.isDeclaredOn line = false := by
  intro line hline
  obtain ⟨line, hmem, rfl⟩ := List.mem_map.mp hline
  obtain ⟨handler, _, hmem⟩ := List.mem_flatMap.mp hmem
  rcases List.mem_cons.mp hmem with rfl | hmem
  · exact symbol.not_isDeclaredOn_blank
  rcases List.mem_cons.mp hmem with rfl | hmem
  · have hhead := head?_of_opensHandler (opensHandler_opener handler)
    exact Symbol.not_isDeclaredOn hhead (by decide) (by decide)
  · have hbody := (bracketed_of_body passages handler).blank_or_indented line.content
      (List.mem_map_of_mem hmem)
    rcases hbody with hblank | hindented
    · rw [hblank]
      exact symbol.not_isDeclaredOn_blank
    · exact Symbol.not_isDeclaredOn (head?_of_indentation hindented) (by decide) (by decide)

structure Provides (advancedMode : Bool) (features : FeatureSet) (reactions : List Reaction) :
    Prop where
  state : ∀ reaction ∈ reactions, reaction.usesState = true → advancedMode = true
  feature : ∀ reaction ∈ reactions, ∀ feature, reaction.Needs feature →
    features.contains feature = true

namespace Provides

variable {advancedMode : Bool} {features : FeatureSet} {reactions : List Reaction}
  {reaction : Reaction}

private theorem isProvided_of_action (h : Provides advancedMode features reactions)
    (hmem : reaction ∈ reactions) {action : Action} (haction : action ∈ reaction.actions)
    (hsymbol : symbol ∈ action.symbols) : symbol.isProvided advancedMode features = true := by
  cases action with
  | sound notes =>
    have hneeds : reaction.Needs .sound := .inl (List.mem_filterMap.mpr ⟨_, haction, rfl⟩)
    have hsound : features.sound = true := h.feature reaction hmem .sound hneeds
    have hqueue : symbol ∈ [.notes, .durations, .noteIndex] := hsymbol
    simp only [List.mem_cons, List.not_mem_nil, or_false] at hqueue
    rcases hqueue with rfl | rfl | rfl <;> exact hsound
  | setState slots =>
    have huses : reaction.usesState = true := by
      rw [Reaction.usesState, Bool.or_eq_true, List.any_eq_true]
      exact .inr ⟨_, haction, rfl⟩
    rw [List.mem_singleton.mp hsymbol]
    exact h.state reaction hmem huses
  | _ => cases hsymbol

private theorem isProvided_of_reaction (h : Provides advancedMode features reactions)
    (hmem : reaction ∈ reactions) (hsymbol : symbol ∈ reaction.symbols) :
    symbol.isProvided advancedMode features = true := by
  rw [Reaction.symbols, List.mem_append, List.mem_append, List.mem_ite_nil_right,
    List.mem_flatMap] at hsymbol
  rcases hsymbol with (hevent | ⟨hfilter, hstate⟩) | ⟨action, haction, hnamed⟩
  · rw [Event.symbols, List.mem_ite_nil_right, List.mem_singleton] at hevent
    obtain ⟨htilt, rfl⟩ := hevent
    have hneeds : reaction.Needs .tiltAngle := .inr (by rw [Reaction.handler, htilt]; rfl)
    exact h.feature reaction hmem .tiltAngle hneeds
  · have huses : reaction.usesState = true := by simp [Reaction.usesState, hfilter]
    rw [List.mem_singleton.mp hstate]
    exact h.state reaction hmem huses
  · exact h.isProvided_of_action hmem haction hnamed

private theorem exists_isAdvanced_of_stateSync {handler : Handler}
    (h : .stateSync ∈ entriesOf handler passages) :
    ∃ passage ∈ passages, passage.reaction.isAdvanced = true := by
  rw [entriesOf, (Chapter.ofPassages_perm _).mem_iff, List.mem_append] at h
  rcases h with hrule | hsync
  · obtain ⟨_, _, heq⟩ := List.mem_map.mp hrule
    cases heq
  · obtain ⟨hadvanced, _⟩ := List.mem_ite_nil_right.mp hsync
    obtain ⟨passage, hhead, hadvanced⟩ := (Option.any_eq_true _ _).mp hadvanced
    exact ⟨passage, (List.mem_filter.mp (List.mem_of_head? hhead)).1, hadvanced⟩

private theorem isProvided_of_entry {handler : Handler}
    (h : Provides advancedMode features (passages.map Passage.reaction)) {entry : Entry}
    (hentry : entry ∈ entriesOf handler passages) {line : Line} (hline : line ∈ entry.lines)
    (hsymbol : symbol ∈ symbolsIn line.code) :
    symbol.isProvided advancedMode features = true := by
  cases entry with
  | rule passage =>
    have hmem := (rule_mem_entriesOf.mp hentry).1
    exact h.isProvided_of_reaction (List.mem_map_of_mem hmem)
      (Reaction.symbolsIn_branch passage.written line hline hsymbol)
  | stateSync =>
    obtain ⟨passage, hpassage, hadvanced⟩ := exists_isAdvanced_of_stateSync hentry
    have huses : passage.reaction.usesState = true := by simp [Reaction.usesState, hadvanced]
    have hmode := h.state passage.reaction (List.mem_map_of_mem hpassage) huses
    have hnamed : ∀ line ∈ stateSync, symbolsIn line.code ⊆ [.state, .newState, .displayState] := by
      decide
    have hstate := hnamed line hline hsymbol
    simp only [List.mem_cons, List.not_mem_nil, or_false] at hstate
    rcases hstate with rfl | rfl | rfl <;> exact hmode

private theorem isProvided_of_handlers
    (h : Provides advancedMode features (passages.map Passage.reaction)) :
    ∀ line ∈ (linesOfHandlers handlers passages).map Line.content, symbol.isUsedOn line = true →
      symbol.isProvided advancedMode features = true := by
  intro line hline hused
  have hnamed := Symbol.mem_symbolsIn_of_isUsedOn (not_isDeclaredOn_of_handlers line hline) hused
  obtain ⟨line, hmem, rfl⟩ := List.mem_map.mp hline
  rw [symbolsIn_content] at hnamed
  obtain ⟨handler, _, hheader | ⟨entry, hentry, hline⟩⟩ := mem_linesOfHandlers.mp hmem
  · have hnone : ∀ line ∈ handler.header, symbolsIn line.code = [] := by cases handler <;> decide
    rw [hnone line hheader] at hnamed
    cases hnamed
  · exact h.isProvided_of_entry hentry hline hnamed

end Provides

end Handlers

section Preamble

open Preamble

variable {advancedMode : Bool} {features : FeatureSet} {symbol : Symbol}

def usedOn (lines : List Line) : List Symbol :=
  Symbol.all.filter fun symbol => lines.any fun line => symbol.isUsedOn line.content

def declaredOn (lines : List Line) : List Symbol :=
  Symbol.all.filter fun symbol => lines.any fun line => symbol.isDeclaredOn line.content

private theorem mem_usedOn {lines : List Line} :
    symbol ∈ usedOn lines ↔ ∃ line ∈ lines.map Line.content, symbol.isUsedOn line = true := by
  simp [usedOn, symbol.mem_all]

private theorem mem_declaredOn {lines : List Line} :
    symbol ∈ declaredOn lines ↔
      ∃ line ∈ lines.map Line.content, symbol.isDeclaredOn line = true := by
  simp [declaredOn, symbol.mem_all]

private theorem isDeclaredFirst_of_not_mem_usedOn {lines : List Line} (h : symbol ∉ usedOn lines) :
    symbol.IsDeclaredFirst (lines.map Line.content) := by
  apply Symbol.isDeclaredFirst_of_unused
  intro line hline
  rw [Bool.eq_false_iff]
  exact fun hused => h (mem_usedOn.mpr ⟨line, hline, hused⟩)

/-- Only the parts of the preamble that serve the state and the sound use anything. -/
theorem usedOn_eq_nil :
    ∀ part ∈ [stateVariables, angleVariable, timerStop, microphoneSetup, outputReset],
      usedOn part = [] := by
  decide +kernel

private theorem usedOn_stateDisplay : usedOn stateDisplay = [.state] := by decide +kernel

private theorem usedOn_noteQueue :
    usedOn noteQueue = [.notes, .durations, .noteIndex] := by decide +kernel

private theorem declaredOn_stateVariables : declaredOn stateVariables = [.state, .newState] := by
  decide +kernel

private theorem declaredOn_soundSetup :
    declaredOn soundSetup = [.notes, .durations, .noteIndex, .wave] := by
  decide +kernel

private theorem isDeclaredFirst_append_of_subset {lines others : List Line}
    (h : symbol.IsDeclaredFirst (lines.map Line.content))
    (hothers : usedOn others ⊆ declaredOn lines) :
    symbol.IsDeclaredFirst ((lines ++ others).map Line.content) := by
  rw [List.map_append]
  apply h.append
  by_cases hused : symbol ∈ usedOn others
  · exact .inl (mem_declaredOn.mp (hothers hused))
  · exact .inr (isDeclaredFirst_of_not_mem_usedOn hused)

/-- The wave is computed after it has been declared. -/
theorem isDeclaredFirst_soundSetup (symbol : Symbol) :
    symbol.IsDeclaredFirst (soundSetup.map Line.content) := by
  have hvariables : usedOn (soundSetup.take 8) = [] := by decide +kernel
  have hwave : usedOn (soundSetup.drop 8) ⊆ declaredOn (soundSetup.take 8) := by decide +kernel
  rw [← List.take_append_drop 8 soundSetup]
  exact isDeclaredFirst_append_of_subset
    (isDeclaredFirst_of_not_mem_usedOn (by simp [hvariables])) hwave

private theorem isDeclaredFirst_part {part : List Line} (used : Bool)
    (h : symbol.IsDeclaredFirst (part.map Line.content)) :
    symbol.IsDeclaredFirst ((if used then part else []).map Line.content) := by
  cases used with
  | true => exact h
  | false => exact Symbol.isDeclaredFirst_of_unused (by simp)

private theorem usedOn_part_subset {used : Bool} {part : List Line} {declared : List Symbol}
    (h : used = true → usedOn part ⊆ declared) :
    usedOn (if used then part else []) ⊆ declared := by
  cases used with
  | true => exact h rfl
  | false => exact List.nil_subset declared

private theorem declaredOn_mono {lines others : List Line} (h : lines ⊆ others) :
    declaredOn lines ⊆ declaredOn others := by
  intro symbol hmem
  obtain ⟨line, hline, hdeclared⟩ := mem_declaredOn.mp hmem
  exact mem_declaredOn.mpr ⟨line, List.map_subset Line.content h hline, hdeclared⟩

private theorem isDeclaredFirst_preamble (symbol : Symbol) (advancedMode : Bool)
    (features : FeatureSet) :
    symbol.IsDeclaredFirst ((preamble advancedMode features).map Line.content) := by
  have hidle {part : List Line}
      (h : part ∈ [stateVariables, angleVariable, timerStop, microphoneSetup, outputReset]) :
      symbol.IsDeclaredFirst (part.map Line.content) :=
    isDeclaredFirst_of_not_mem_usedOn (by simp [usedOn_eq_nil part h])
  unfold preamble
  -- The subroutine and the note queue are the only ones that use what others declare.
  apply isDeclaredFirst_append_of_subset
  · apply isDeclaredFirst_append_of_subset
    · simp only [List.map_append]
      refine .append ?_ (.inr (hidle (by simp)))
      refine .append ?_ (.inr (isDeclaredFirst_part _ (hidle (by simp))))
      refine .append ?_ (.inr (isDeclaredFirst_part _ (hidle (by simp))))
      refine .append ?_ (.inr (isDeclaredFirst_part _ (isDeclaredFirst_soundSetup symbol)))
      refine .append ?_ (.inr (isDeclaredFirst_part _ (hidle (by simp))))
      exact isDeclaredFirst_part _ (hidle (by simp))
    · apply usedOn_part_subset
      rintro rfl
      rw [usedOn_stateDisplay]
      have hdeclared : [.state] ⊆ declaredOn stateVariables := by
        rw [declaredOn_stateVariables]
        decide
      exact List.Subset.trans hdeclared (declaredOn_mono fun line hline => by simp [hline])
  · apply usedOn_part_subset
    intro hused
    rw [usedOn_noteQueue]
    have hdeclared : [.notes, .durations, .noteIndex] ⊆ declaredOn soundSetup := by
      rw [declaredOn_soundSetup]
      decide
    exact List.Subset.trans hdeclared (declaredOn_mono fun line hline => by simp [hused, hline])

private theorem mem_declaredOn_preamble (h : symbol.isProvided advancedMode features = true) :
    symbol ∈ declaredOn (preamble advancedMode features) := by
  have hstate (hmode : advancedMode = true) :
      stateVariables ⊆ preamble advancedMode features ∧
        stateDisplay ⊆ preamble advancedMode features := by
    constructor
    · intro line hline
      simp [preamble, hmode, hline]
    · intro line hline
      simp [preamble, hmode, hline]
  have hangle (htilt : features.tiltAngle = true) :
      angleVariable ⊆ preamble advancedMode features := by
    intro line hline
    simp [preamble, htilt, hline]
  have hsound (hused : features.sound = true) :
      soundSetup ⊆ preamble advancedMode features := by
    intro line hline
    simp [preamble, hused, hline]
  cases symbol with
  | angle =>
    apply declaredOn_mono (hangle h)
    decide +kernel
  | state | newState =>
    apply declaredOn_mono (hstate h).1
    rw [declaredOn_stateVariables]
    decide
  | displayState =>
    apply declaredOn_mono (hstate h).2
    decide +kernel
  | notes | durations | noteIndex | wave =>
    apply declaredOn_mono (hsound h)
    rw [declaredOn_soundSetup]
    decide

private theorem countP_preamble_le (symbol : Symbol) (advancedMode : Bool) (features : FeatureSet) :
    ((preamble advancedMode features).map Line.content).countP symbol.isDeclaredOn ≤ 1 := by
  have hall : ∀ symbol ∈ Symbol.all, ((preamble true ⟨true, true, true, true⟩).map
      Line.content).countP symbol.isDeclaredOn ≤ 1 := by
    decide +kernel
  have hsublist := (preamble_sublist advancedMode features).map Line.content
  exact Nat.le_trans hsublist.countP_le (hall symbol symbol.mem_all)

end Preamble

namespace Assembly

variable {assembly : Assembly} {passages : List Passage} {advancedMode : Bool}

theorem isDeclaredFirst_lines (h : assembly.layout.Realizes passages)
    (hprovides : Provides advancedMode assembly.features (passages.map Passage.reaction))
    (symbol : Symbol) : symbol.IsDeclaredFirst (assembly.script advancedMode).lines := by
  have hblank : symbol.IsDeclaredFirst ([Line.blank].map Line.content) :=
    isDeclaredFirst_of_not_mem_usedOn (by cases symbol <;> decide)
  by_cases hne : passages = []
  · subst hne
    rw [lines_script_of_nil h]
    exact hblank
  rw [lines_script h hne, List.map_append, List.append_assoc]
  apply (isDeclaredFirst_preamble symbol advancedMode assembly.features).append
  by_cases hprovided : symbol.isProvided advancedMode assembly.features = true
  · exact .inl (mem_declaredOn.mp (mem_declaredOn_preamble hprovided))
  · refine .inr (Symbol.IsDeclaredFirst.append ?_ (.inr hblank))
    apply Symbol.isDeclaredFirst_of_unused
    intro line hline
    rw [Bool.eq_false_iff]
    exact fun hused => hprovided (hprovides.isProvided_of_handlers line hline hused)

theorem countP_lines_le (h : assembly.layout.Realizes passages) (symbol : Symbol) :
    (assembly.script advancedMode).lines.countP symbol.isDeclaredOn ≤ 1 := by
  have hblank : [""].countP symbol.isDeclaredOn = 0 := by simp [symbol.not_isDeclaredOn_blank]
  by_cases hne : passages = []
  · subst hne
    rw [lines_script_of_nil h, hblank]
    exact Nat.zero_le 1
  have hhandlers : ((handlerLines passages).map Line.content).countP symbol.isDeclaredOn = 0 := by
    rw [List.countP_eq_zero]
    intro line hline
    rw [not_isDeclaredOn_of_handlers line hline]
    exact Bool.false_ne_true
  rw [lines_script h hne, List.map_append, List.countP_append, List.countP_append, hhandlers,
    hblank]
  exact countP_preamble_le symbol advancedMode assembly.features

end Assembly

end VisualRules
