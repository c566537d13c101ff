import VisualRules.Proofs.Realization
import VisualRules.Proofs.Statements

namespace VisualRules

/-- The lines of a text. What follows the last line break is a line too. -/
def linesOf (text : String) : List String := (text.toList.splitOn '\n').map String.ofList

def Script.lines (script : Script) : List String := linesOf script.text

namespace Line

theorem toList_textOf_cons (line : Line) (lines : List Line) :
    (textOf (line :: lines)).toList = line.content.toList ++ '\n' :: (textOf lines).toList := by
  simp [textOf, text, String.toList_join]

theorem forall_mem_textOf {p : Char → Prop} (htab : p '\t') (hbreak : p '\n') {lines : List Line}
    (h : ∀ line ∈ lines, ∀ c ∈ line.code.toList, p c) : ∀ c ∈ (textOf lines).toList, p c := by
  induction lines with
  | nil => simp
  | cons line lines ih =>
    rw [List.forall_mem_cons] at h
    rw [toList_textOf_cons, List.forall_mem_append, List.forall_mem_cons]
    refine ⟨?_, hbreak, ih h.2⟩
    rw [content, String.toList_append, String.toList_ofList, List.forall_mem_append]
    refine ⟨?_, h.1⟩
    intro c hc
    rwa [List.eq_of_mem_replicate hc]

theorem newline_not_mem_content {line : Line} (h : '\n' ∉ line.code.toList) :
    '\n' ∉ line.content.toList := by
  simp [content, h]

theorem linesOf_textOf {lines : List Line} (h : ∀ line ∈ lines, '\n' ∉ line.code.toList) :
    linesOf (textOf lines) = lines.map content ++ [""] := by
  unfold linesOf
  induction lines with
  | nil => decide
  | cons line lines ih =>
    rw [List.forall_mem_cons] at h
    rw [toList_textOf_cons,
      List.splitOn_append_cons_self_of_not_mem (newline_not_mem_content h.1), List.map_cons, ih h.2]
    simp

end Line

namespace Handler

/-- What the handler does before its rules. -/
def opening (handler : Handler) : List Line :=
  if handler = timeout then [⟨1, "timer.period[0] = 0"⟩] else []

def opener (handler : Handler) : Line := ⟨0, "onevent " ++ handler.trigger⟩

private theorem header_eq (handler : Handler) :
    handler.header = .blank :: handler.opener :: handler.opening := rfl

end Handler

def Entry.lines : Entry → List Line
  | rule passage => passage.branch.lines
  | stateSync => VisualRules.stateSync

theorem Entry.text_segment (entry : Entry) : entry.segment.text = Line.textOf entry.lines := by
  cases entry with
  | rule passage => rfl
  | stateSync => rfl

/-- The lines of a handler below the one that opens it. -/
def bodyOf (passages : List Passage) (handler : Handler) : List Line :=
  handler.opening ++ (entriesOf handler passages).flatMap Entry.lines

def linesOfHandlers (handlers : List Handler) (passages : List Passage) : List Line :=
  handlers.flatMap fun handler => .blank :: handler.opener :: bodyOf passages handler

def handlerLines (passages : List Passage) : List Line :=
  linesOfHandlers (handlersOf (passages.map Passage.reaction)) passages

private theorem Line.join_flatMap_eq_textOf {α : Type} {f : α → List String} {g : α → List Line}
    {xs : List α} (h : ∀ x ∈ xs, String.join (f x) = textOf (g x)) :
    String.join (xs.flatMap f) = textOf (xs.flatMap g) := by
  induction xs with
  | nil => rfl
  | cons x xs ih =>
    rw [List.forall_mem_cons] at h
    rw [List.flatMap_cons, List.flatMap_cons, String.join_append, textOf_append, h.1, ih h.2]

namespace Layout.Realizes

variable {layout : Layout} {passages : List Passage} {handler : Handler}

private theorem join_handlerSegments (h : layout.Realizes passages)
    (hmem : handler ∈ handlersOf (passages.map Passage.reaction)) :
    String.join ((layout.handlerSegments handler).map Segment.text) =
      Line.textOf (.blank :: handler.opener :: bodyOf passages handler) := by
  have hentries : String.join (((entriesOf handler passages).map Entry.segment).map Segment.text) =
      Line.textOf ((entriesOf handler passages).flatMap Entry.lines) := by
    rw [List.map_map, List.map_eq_flatMap]
    apply Line.join_flatMap_eq_textOf
    intro entry _
    rw [String.join_cons, String.join_nil, String.append_empty]
    exact entry.text_segment
  rw [h.handlerSegments_eq hmem, List.map_cons, String.join_cons, hentries, bodyOf,
    ← List.cons_append, ← List.cons_append, ← Handler.header_eq, Line.textOf_append]
  rfl

private theorem join_texts (h : layout.Realizes passages) :
    String.join layout.texts = Line.textOf (handlerLines passages) := by
  rw [texts, h.segments_eq_flatMap, List.map_flatMap]
  exact Line.join_flatMap_eq_textOf fun handler => h.join_handlerSegments

end Layout.Realizes

/-- The preamble up to the note queue. -/
def Preamble.setup (advancedMode : Bool) (features : FeatureSet) : List Line :=
  (if advancedMode then stateVariables else []) ++
  (if features.tiltAngle then angleVariable else []) ++
  (if features.sound then soundSetup else []) ++
  (if features.timer then timerStop else []) ++
  (if features.microphone then microphoneSetup else []) ++
  outputReset ++
  (if advancedMode then stateDisplay else [])

theorem preamble_eq (advancedMode : Bool) (features : FeatureSet) :
    preamble advancedMode features =
      Preamble.setup advancedMode features ++ if features.sound then Preamble.noteQueue else [] :=
  rfl

namespace Preamble

private theorem part_sublist (used : Bool) (part : List Line) :
    (if used then part else []).Sublist part := by
  cases used with
  | true => exact List.Sublist.refl part
  | false => exact List.nil_sublist part

theorem setup_sublist (advancedMode : Bool) (features : FeatureSet) :
    (setup advancedMode features).Sublist (setup true ⟨true, true, true, true⟩) := by
  unfold setup
  repeat' apply List.Sublist.append
  all_goals first | exact part_sublist _ _ | exact List.Sublist.refl _

end Preamble

theorem preamble_sublist (advancedMode : Bool) (features : FeatureSet) :
    (preamble advancedMode features).Sublist (preamble true ⟨true, true, true, true⟩) :=
  (Preamble.setup_sublist advancedMode features).append (Preamble.part_sublist _ _)

theorem isPrintable_of_mem_preamble {advancedMode : Bool} {features : FeatureSet} {line : Line}
    (h : line ∈ preamble advancedMode features) : IsPrintable line.code := by
  have hall : ∀ line ∈ preamble true ⟨true, true, true, true⟩, IsPrintable line.code := by
    decide +kernel
  exact hall line ((preamble_sublist advancedMode features).subset h)

theorem mem_linesOfHandlers {handlers : List Handler} {passages : List Passage} {line : Line} :
    line ∈ linesOfHandlers handlers passages ↔ ∃ handler ∈ handlers,
      line ∈ handler.header ∨ ∃ entry ∈ entriesOf handler passages, line ∈ entry.lines := by
  simp [linesOfHandlers, bodyOf, Handler.header_eq, or_assoc]

theorem isCode_of_mem_header {handler : Handler} {line : Line} (h : line ∈ handler.header) :
    IsCode line.code := by
  have hall : ∀ line ∈ handler.header, IsCode line.code := by cases handler <;> decide
  exact hall line h

theorem Entry.isCode_of_mem_lines {entry : Entry} {line : Line} (h : line ∈ entry.lines) :
    IsCode line.code := by
  cases entry with
  | rule passage => exact Reaction.isCode_of_branch passage.written h
  | stateSync =>
    have hall : ∀ line ∈ VisualRules.stateSync, IsCode line.code := by decide
    exact hall line h

theorem isCode_of_mem_handlerLines {passages : List Passage} {line : Line}
    (h : line ∈ handlerLines passages) : IsCode line.code := by
  obtain ⟨handler, _, hheader | ⟨entry, _, hentry⟩⟩ := mem_linesOfHandlers.mp h
  · exact isCode_of_mem_header hheader
  · exact entry.isCode_of_mem_lines hentry

private theorem Layout.Realizes.texts_ne_nil {layout : Layout} {passages : List Passage}
    (h : layout.Realizes passages) (hne : passages ≠ []) : layout.texts ≠ [] := by
  have hrules : 0 < layout.rules.length := by
    rw [h.length_rules]
    exact List.length_pos_iff.mpr hne
  have hsize := h.rules_lt_size layout.rules[0] (List.getElem_mem hrules)
  intro hnil
  rw [Layout.size, List.map_eq_nil_iff.mp hnil] at hsize
  exact absurd hsize (Nat.not_lt_zero _)

namespace Assembly

variable {assembly : Assembly} {passages : List Passage}

theorem text_script (h : assembly.layout.Realizes passages) (hne : passages ≠ [])
    (advancedMode : Bool) :
    (assembly.script advancedMode).text =
      Line.textOf (preamble advancedMode assembly.features ++ handlerLines passages) := by
  rw [Line.textOf_append, ← h.join_texts, Script.text, script]
  cases htexts : assembly.layout.texts with
  | nil => exact absurd htexts (h.texts_ne_nil hne)
  | cons text rest =>
    show String.join ((Line.textOf _ ++ text) :: rest) = _
    rw [String.join_cons, String.join_cons, String.append_assoc]

theorem lines_script (h : assembly.layout.Realizes passages) (hne : passages ≠ [])
    (advancedMode : Bool) :
    (assembly.script advancedMode).lines =
      (preamble advancedMode assembly.features ++ handlerLines passages).map Line.content ++
        [""] := by
  rw [Script.lines, text_script h hne]
  apply Line.linesOf_textOf
  intro line hline
  rcases List.mem_append.mp hline with hpreamble | hhandler
  · exact (isPrintable_of_mem_preamble hpreamble).newline_not_mem
  · exact (isCode_of_mem_handlerLines hhandler).newline_not_mem

/-- Without rules there is no script, not even a preamble. -/
theorem lines_script_of_nil (h : assembly.layout.Realizes []) (advancedMode : Bool) :
    (assembly.script advancedMode).lines = [""] := by
  have hsegments : assembly.layout.segments = [] := by rw [h.segments_eq]; rfl
  rw [Script.lines, Script.text, script, Layout.texts, hsegments]
  show linesOf "" = [""]
  decide

end Assembly

end VisualRules
