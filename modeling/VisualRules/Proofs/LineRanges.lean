import Mathlib.Data.List.SplitBy
import VisualRules.Proofs.Growth
import VisualRules.Proofs.Listing

/-!
# Where the code of a rule stands

A script counts the line breaks of its segments to tell on which lines a rule stands. The count is
right because every segment is made of whole lines, so that no line of the text reaches from one
segment into the next. A byte is a character, since the script has no characters beyond ASCII.
-/

namespace VisualRules

/-- The text, cut after each of its line breaks. -/
def cutAfterBreaks (text : String) : List String :=
  (text.toList.splitBy fun c _ => c ≠ '\n').map String.ofList

/-- The text is a number of lines, each with its line break. -/
def IsLines (text : String) : Prop :=
  ∃ lines : List Line, (∀ line ∈ lines, IsPrintable line.code) ∧ text = Line.textOf lines

section Sums

private theorem lineCount_append (text other : String) :
    lineCount (text ++ other) = lineCount text + lineCount other := by
  simp [lineCount]

private theorem total_map_of_append {size : String → Nat} (hnil : size "" = 0)
    (happend : ∀ text other, size (text ++ other) = size text + size other) (texts : List String) :
    total (texts.map size) = size (String.join texts) := by
  induction texts with
  | nil => exact hnil.symm
  | cons text texts ih => rw [List.map_cons, String.join_cons, happend, ← ih]; rfl

end Sums

section Cuts

private theorem isChain_append_singleton {α : Type} {p : α → Bool} {xs : List α}
    (h : ∀ x ∈ xs, p x = true) (y : α) : (xs ++ [y]).IsChain fun x _ => p x = true := by
  induction xs with
  | nil => simp
  | cons x xs ih =>
    rw [List.forall_mem_cons] at h
    rw [List.cons_append, List.isChain_cons]
    exact ⟨fun _ _ => h.1, ih h.2⟩

theorem join_cutAfterBreaks (text : String) : String.join (cutAfterBreaks text) = text := by
  apply String.toList_injective
  simp [cutAfterBreaks, String.toList_join, List.flatMap_map]

private theorem IsPrintable.newline_not_mem_content {line : Line} (h : IsPrintable line.code) :
    '\n' ∉ line.content.toList := Line.newline_not_mem_content h.newline_not_mem

theorem cutAfterBreaks_textOf {lines : List Line} (h : ∀ line ∈ lines, IsPrintable line.code) :
    cutAfterBreaks (Line.textOf lines) = lines.map Line.text := by
  unfold cutAfterBreaks
  induction lines with
  | nil => rfl
  | cons line lines ih =>
    rw [List.forall_mem_cons] at h
    have hline : (line.content.toList ++ ['\n']).splitBy (fun c _ => c ≠ '\n') =
        [line.content.toList ++ ['\n']] := by
      apply List.splitBy_of_isChain (by simp)
      apply isChain_append_singleton
      intro c hc
      have hne : c ≠ '\n' := ne_of_mem_of_not_mem hc h.1.newline_not_mem_content
      simp [hne]
    rw [Line.toList_textOf_cons, List.append_cons, List.splitBy_append (by simp), hline,
      List.map_append, ih h.2]
    simp [Line.text]

private theorem lineCount_textOf {lines : List Line} (h : ∀ line ∈ lines, IsPrintable line.code) :
    lineCount (Line.textOf lines) = lines.length := by
  unfold lineCount
  induction lines with
  | nil => rfl
  | cons line lines ih =>
    rw [List.forall_mem_cons] at h
    rw [Line.toList_textOf_cons, List.count_append, List.count_cons_self, ih h.2,
      List.count_eq_zero_of_not_mem h.1.newline_not_mem_content, List.length_cons, Nat.zero_add]

end Cuts

namespace IsLines

variable {text other : String}

theorem append (h : IsLines text) (h' : IsLines other) : IsLines (text ++ other) := by
  obtain ⟨lines, hlines, rfl⟩ := h
  obtain ⟨others, hothers, rfl⟩ := h'
  exact ⟨lines ++ others, List.forall_mem_append.mpr ⟨hlines, hothers⟩,
    (Line.textOf_append lines others).symm⟩

theorem join {texts : List String} (h : ∀ text ∈ texts, IsLines text) :
    IsLines (String.join texts) := by
  induction texts with
  | nil => exact ⟨[], by simp, rfl⟩
  | cons text texts ih =>
    rw [List.forall_mem_cons] at h
    rw [String.join_cons]
    exact h.1.append (ih h.2)

theorem length_cutAfterBreaks (h : IsLines text) :
    (cutAfterBreaks text).length = lineCount text := by
  obtain ⟨lines, hlines, rfl⟩ := h
  rw [cutAfterBreaks_textOf hlines, lineCount_textOf hlines, List.length_map]

theorem cutAfterBreaks_append (h : IsLines text) (h' : IsLines other) :
    cutAfterBreaks (text ++ other) = cutAfterBreaks text ++ cutAfterBreaks other := by
  obtain ⟨lines, hlines, rfl⟩ := h
  obtain ⟨others, hothers, rfl⟩ := h'
  rw [← Line.textOf_append, cutAfterBreaks_textOf (List.forall_mem_append.mpr ⟨hlines, hothers⟩),
    cutAfterBreaks_textOf hlines, cutAfterBreaks_textOf hothers, List.map_append]

theorem eq_empty_iff (h : IsLines text) : text = "" ↔ lineCount text = 0 := by
  rw [← h.length_cutAfterBreaks, List.length_eq_zero_iff]
  constructor
  · rintro rfl
    rfl
  · intro hnil
    rw [← join_cutAfterBreaks text, hnil]
    rfl

private theorem toNat_lt (h : IsLines text) : ∀ c ∈ text.toList, c.toNat < 128 := by
  obtain ⟨lines, hlines, rfl⟩ := h
  refine Line.forall_mem_textOf (p := fun c => c.toNat < 128) (by decide) (by decide) ?_
  intro line hline c hc
  have hprintable := List.all_eq_true.mp (hlines line hline) c hc
  rw [isPrintable, Bool.and_eq_true, decide_eq_true_eq, decide_eq_true_eq] at hprintable
  exact Nat.lt_of_le_of_lt hprintable.2 (by decide)

end IsLines

private theorem utf8ByteSize_eq_length {text : String} (h : ∀ c ∈ text.toList, c.toNat < 128) :
    text.utf8ByteSize = text.toList.length := by
  have hlist : ∀ cs : List Char, (∀ c ∈ cs, c.toNat < 128) →
      (String.ofList cs).utf8ByteSize = cs.length := by
    intro cs hcs
    induction cs with
    | nil => rfl
    | cons c cs ih =>
      rw [List.forall_mem_cons] at hcs
      have hc : c.utf8Size = 1 := Char.utf8Size_eq_one_iff.mpr (Nat.le_of_lt_succ hcs.1)
      rw [String.ofList_cons, String.utf8ByteSize_append, String.utf8ByteSize_singleton, hc,
        ih hcs.2, List.length_cons, Nat.add_comm]
  have htext := hlist text.toList h
  rwa [String.ofList_toList] at htext

theorem Layout.Realizes.isLines_of_mem_segments {layout : Layout} {passages : List Passage}
    (h : layout.Realizes passages) {segment : Segment} (hmem : segment ∈ layout.segments) :
    IsLines segment.text := by
  rw [h.segments_eq, List.mem_map] at hmem
  obtain ⟨⟨handler, entry⟩, _, rfl⟩ := hmem
  cases entry with
  | none => exact ⟨handler.header, fun _ hline => (isCode_of_mem_header hline).isPrintable, rfl⟩
  | some entry =>
    exact ⟨entry.lines, fun _ hline => (Entry.isCode_of_mem_lines hline).isPrintable,
      entry.text_segment⟩

theorem isLines_lead (script : Script) (advancedMode : Bool) (position : Nat) :
    IsLines (script.lead advancedMode position) := by
  unfold Script.lead
  split
  · exact ⟨_, fun _ hline => isPrintable_of_mem_preamble hline, rfl⟩
  · exact ⟨[], by simp, rfl⟩

/-- Every segment of a script is made of whole lines. -/
theorem Assembly.isLines_of_mem_segments {assembly : Assembly} {passages : List Passage}
    (h : assembly.layout.Realizes passages) (advancedMode : Bool) :
    ∀ text ∈ (assembly.script advancedMode).segments, IsLines text := by
  intro text htext
  obtain ⟨position, hposition⟩ := List.getElem?_of_mem htext
  rw [getElem?_script, Option.map_eq_some_iff] at hposition
  obtain ⟨segment, hsegment, rfl⟩ := hposition
  exact (isLines_lead _ _ _).append (h.isLines_of_mem_segments (List.mem_of_getElem? hsegment))

namespace Script

def before (script : Script) (segment : Nat) : String := String.join (script.segments.take segment)

/-- These are the segment, the lines and the bytes that the script tells for a rule, and each of
them holds the code of the rule and nothing else. -/
structure Locates (script : Script) (rule : Nat) (code : String) (segment : Nat)
    (lines bytes : Nat × Nat) : Prop where
  segment_eq : script.segmentOfRule? rule = some segment
  line_eq : script.lineOfRule? rule = some lines.1
  lines_eq : script.linesOfRule? rule = some lines
  bytes_eq : script.bytesOfRule? rule = some bytes
  getElem?_segment : script.segments[segment]? = some code
  join_lines : String.join
    (((cutAfterBreaks script.text).drop lines.1).take (lines.2 - lines.1)) = code
  empty_iff : code = "" ↔ lines.1 = lines.2
  extract_bytes : script.text.toByteArray.extract bytes.1 bytes.2 = code.toByteArray
  take_characters :
    String.ofList ((script.text.toList.drop bytes.1).take (bytes.2 - bytes.1)) = code

variable {script : Script} {rule segment : Nat} {code : String}

theorem lineOfRule?_eq (h : script.segmentOfRule? rule = some segment) :
    script.lineOfRule? rule = some (lineCount (script.before segment)) := by
  rw [lineOfRule?, h]
  exact congrArg some (total_map_of_append rfl lineCount_append _)

private theorem linesOfRule?_eq_some_iff (h : script.segmentOfRule? rule = some segment)
    {lines : Nat × Nat} :
    script.linesOfRule? rule = some lines ↔ ∃ code, script.segments[segment]? = some code ∧
      (lineCount (script.before segment),
        lineCount (script.before segment) + lineCount code) = lines := by
  rw [linesOfRule?, lineOfRule?_eq h, h]
  simp [Option.bind_eq_some_iff]

theorem bytesOfRule?_eq (h : script.segmentOfRule? rule = some segment)
    (hcode : script.segments[segment]? = some code) :
    script.bytesOfRule? rule = some ((script.before segment).utf8ByteSize,
      (script.before segment).utf8ByteSize + code.utf8ByteSize) := by
  have hbytes : total ((script.segments.take segment).map String.utf8ByteSize) =
      (script.before segment).utf8ByteSize :=
    total_map_of_append rfl (fun _ _ => String.utf8ByteSize_append) _
  rw [bytesOfRule?, h, ← hbytes]
  simp [hcode]

theorem text_eq_of_segment (hcode : script.segments[segment]? = some code) :
    script.text = script.before segment ++
      (code ++ String.join (script.segments.drop (segment + 1))) := by
  obtain ⟨hlt, hget⟩ := List.getElem?_eq_some_iff.mp hcode
  rw [before, ← String.join_cons, ← String.join_append, ← hget, List.cons_getElem_drop_succ,
    List.take_append_drop, text]

theorem isLines_before (hlines : ∀ text ∈ script.segments, IsLines text) (segment : Nat) :
    IsLines (script.before segment) :=
  .join fun text htext => hlines text (List.mem_of_mem_take htext)

/-- What stands in front of a segment is made of whole lines, so to count its line breaks is to
count its lines. -/
theorem locates_of_segment (hlines : ∀ text ∈ script.segments, IsLines text)
    (hsegment : script.segmentOfRule? rule = some segment)
    (hcode : script.segments[segment]? = some code) :
    script.Locates rule code segment
      (lineCount (script.before segment), lineCount (script.before segment) + lineCount code)
      ((script.before segment).utf8ByteSize,
        (script.before segment).utf8ByteSize + code.utf8ByteSize) := by
  have hfront : IsLines (script.before segment) := isLines_before hlines segment
  have hmiddle : IsLines code := hlines code (List.mem_of_getElem? hcode)
  have hback : IsLines (String.join (script.segments.drop (segment + 1))) :=
    .join fun text htext => hlines text (List.mem_of_mem_drop htext)
  have htext := text_eq_of_segment hcode
  constructor
  case segment_eq => exact hsegment
  case line_eq => exact lineOfRule?_eq hsegment
  case lines_eq => exact (linesOfRule?_eq_some_iff hsegment).mpr ⟨code, hcode, rfl⟩
  case bytes_eq => exact bytesOfRule?_eq hsegment hcode
  case getElem?_segment => exact hcode
  case join_lines =>
    rw [htext, hfront.cutAfterBreaks_append (hmiddle.append hback),
      hmiddle.cutAfterBreaks_append hback, List.drop_left' hfront.length_cutAfterBreaks,
      Nat.add_sub_cancel_left, List.take_left' hmiddle.length_cutAfterBreaks, join_cutAfterBreaks]
  case empty_iff =>
    rw [hmiddle.eq_empty_iff]
    dsimp only
    omega
  case extract_bytes =>
    have hmove := ByteArray.extract_append_size_add (a := (script.before segment).toByteArray)
      (b := (code ++ String.join (script.segments.drop (segment + 1))).toByteArray) (i := 0)
      (j := code.toByteArray.size)
    rw [htext, String.toByteArray_append]
    refine hmove.trans ?_
    rw [String.toByteArray_append, ByteArray.extract_append_eq_left rfl]
  case take_characters =>
    rw [utf8ByteSize_eq_length hfront.toNat_lt, utf8ByteSize_eq_length hmiddle.toNat_lt, htext,
      String.toList_append, String.toList_append, List.drop_left, Nat.add_sub_cancel_left,
      List.take_left, String.ofList_toList]

private theorem stop_le_start {other segment' : Nat} {lines lines' : Nat × Nat}
    (hone : script.segmentOfRule? rule = some segment)
    (hother : script.segmentOfRule? other = some segment')
    (hlines : script.linesOfRule? rule = some lines)
    (hlines' : script.linesOfRule? other = some lines') (h : segment < segment') :
    lines.2 ≤ lines'.1 := by
  obtain ⟨code, hcode, rfl⟩ := (linesOfRule?_eq_some_iff hone).mp hlines
  obtain ⟨_, _, rfl⟩ := (linesOfRule?_eq_some_iff hother).mp hlines'
  obtain ⟨hlt, rfl⟩ := List.getElem?_eq_some_iff.mp hcode
  have hprefix : script.segments.take segment ++ [script.segments[segment]] <+:
      script.segments.take segment' := by
    rw [List.take_append_getElem]
    exact List.take_prefix_take_left h
  obtain ⟨rest, hrest⟩ := hprefix
  have hcount := congrArg (fun texts => lineCount (String.join texts)) hrest
  simp only [String.join_append, lineCount_append, String.join_cons, String.join_nil,
    String.append_empty] at hcount
  simp only [before]
  omega

end Script

/-- The script tells for every rule where its code stands, for different rules at different places,
and nothing for what is no rule. -/
structure Script.LocatesRules (script : Script) (program : Program) : Prop where
  locates : ∀ (number : Nat) (rule : Rule), program.rules[number]? = some rule →
    ∃ (reaction : Reaction) (branch : Branch) (segment : Nat) (lines bytes : Nat × Nat),
      rule.toReaction program.advancedMode = .ok reaction ∧ reaction.branch = .ok branch ∧
        script.Locates number branch.text segment lines bytes
  apart : ∀ (one other segment segment' : Nat) (lines lines' : Nat × Nat), one ≠ other →
    script.segmentOfRule? one = some segment → script.segmentOfRule? other = some segment' →
    script.linesOfRule? one = some lines → script.linesOfRule? other = some lines' →
    (segment < segment' ∧ lines.2 ≤ lines'.1) ∨ (segment' < segment ∧ lines'.2 ≤ lines.1)
  ascii : ∀ c ∈ script.text.toList, c.toNat < 128
  none_of_le : ∀ number, program.rules.length ≤ number →
    script.segmentOfRule? number = none ∧ script.lineOfRule? number = none ∧
      script.linesOfRule? number = none ∧ script.bytesOfRule? number = none

namespace Program

variable {program : Program} {script : Script}

theorem locatesRules_of_compile (h : program.compile = .ok script) :
    script.LocatesRules program := by
  obtain ⟨passages, assembly, hreactions, hpassages, _, hlayout, rfl⟩ := exists_of_compile h
  have hforall := reactions_eq_ok.mp hreactions
  have hlength : passages.length = program.rules.length := by
    rw [hforall.length_eq, List.length_map]
  have hrules : assembly.layout.rules.length = program.rules.length := by
    rw [← hlength]
    exact hlayout.length_rules
  have hlines := Assembly.isLines_of_mem_segments hlayout program.advancedMode
  constructor
  case locates =>
    intro number rule hrule
    obtain ⟨reaction, hreaction, hread⟩ := exists_getElem?_of_forall₂ hforall hrule
    obtain ⟨passage, hpassage, rfl⟩ := hpassages.exists_of_getElem? hreaction
    obtain ⟨position, hposition, htext⟩ :=
      Assembly.text_of_rule hlayout hpassages.nodup program.advancedMode hpassage
    exact ⟨passage.reaction, passage.branch, position, _, _, hread, passage.written,
      Script.locates_of_segment hlines hposition htext⟩
  case apart =>
    intro one other segment segment' lines lines' hne hone hother hlines hlines'
    have hsegments : segment ≠ segment' := by
      rintro rfl
      have hlt := (List.getElem?_eq_some_iff.mp hone).1
      exact hne ((List.getElem?_inj hlt (hlayout.nodup_rules hpassages.nodup)).mp
        (hone.trans hother.symm))
    rcases Nat.lt_or_gt_of_ne hsegments with hlt | hlt
    · exact .inl ⟨hlt, Script.stop_le_start hone hother hlines hlines' hlt⟩
    · exact .inr ⟨hlt, Script.stop_le_start hother hone hlines' hlines hlt⟩
  case ascii => exact (IsLines.join hlines).toNat_lt
  case none_of_le =>
    intro number hnumber
    have hnone : (assembly.script program.advancedMode).segmentOfRule? number = none :=
      List.getElem?_eq_none (hrules.trans_le hnumber)
    simp [Script.lineOfRule?, Script.linesOfRule?, Script.bytesOfRule?, hnone]

/-- A rule without code between others. -/
def idleTap : Program where
  rules := [
    Rule.ofEvent (.ofKind .tap []),
    (Rule.ofEvent (.ofKind .buttons [1, 0, 0, 0, 0])).withAction (.ofKind .topColor [32, 0, 0]),
    (Rule.ofEvent (.ofKind .tap [])).withAction (.ofKind .topColor [0, 32, 0])]
  advancedMode := false

def idleTapScript : Script where
  segments := [
    Line.textOf (preamble false .empty) ++ (Segment.header .tap).text,
    "",
    "\tcall leds.top(0,32,0)\n",
    (Segment.header .buttons).text,
    "\tif button.forward == 1 then\n\t\tcall leds.top(32,0,0)\n\tend\n"]
  rulePositions := [1, 4, 2]
  features := .empty

theorem locatesRules_of_idleTap :
    idleTap.compile = .ok idleTapScript ∧ idleTapScript.LocatesRules idleTap :=
  ⟨by decide +kernel, locatesRules_of_compile (by decide +kernel)⟩

/-- The rule without code has no lines, and the last rule begins where it does. -/
example : (List.range 4).map idleTapScript.linesOfRule? =
    [some (8, 8), some (11, 14), some (8, 9), none] := by decide +kernel

end Program

end VisualRules
