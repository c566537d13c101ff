import VisualRules.Proofs.Closure
import VisualRules.Proofs.Growth

/-!
# One preamble for all rules

What support code a script has can be told from the cards of its rules, and it comes once: in a
preamble in front of the first handler. Only the preamble has comments, which is how it is found in
the text.
-/

namespace VisualRules

/-- The script has the support code that its rules ask for, in whatever order they stand, and has it
once: in front of the handler of the first rule. Every other segment opens or closes a handler or is
the code of a rule. -/
structure Script.Supports (script : Script) (program : Program) : Prop where
  contains_iff : ∀ feature, script.features.contains feature = true ↔
    ∃ rule ∈ program.rules, rule.AsksFor feature
  perm : ∀ rules : List Rule, rules.Perm program.rules →
    ∃ other, (Program.mk rules program.advancedMode).compile = .ok other ∧
      other.features = script.features
  first_segment : ∀ rule, program.rules.head? = some rule →
    ∃ handler, rule.handler? = some handler ∧ script.segments[0]? =
      some (Line.textOf (preamble program.advancedMode script.features) ++
        (Segment.header handler).text)
  other_segment : ∀ (position : Nat) (text : String), position ≠ 0 →
    script.segments[position]? = some text →
      (∃ handler, text = (Segment.header handler).text) ∨ text = Segment.stateSync.text ∨
        ∃ rule ∈ program.rules, ∃ (reaction : Reaction) (branch : Branch),
          rule.toReaction program.advancedMode = .ok reaction ∧ reaction.branch = .ok branch ∧
            text = branch.text
  once : program.rules ≠ [] → ∃! front, ∃ back, script.text =
    front ++ Line.textOf (preamble program.advancedMode script.features) ++ back
  nil : program.rules = [] → script.segments = [] ∧ script.text = "" ∧ script.features = .empty

section Comments

private theorem sharp_not_mem_textOf {lines : List Line} (h : ∀ line ∈ lines, IsCode line.code) :
    '#' ∉ (Line.textOf lines).toList := by
  have hall : ∀ c ∈ (Line.textOf lines).toList, c ≠ '#' := by
    refine Line.forall_mem_textOf (p := (· ≠ '#')) (by decide) (by decide) ?_
    intro line hline c hc heq
    exact (h line hline).sharp_not_mem (heq ▸ hc)
  exact fun hmem => hall '#' hmem rfl

/-- Every preamble begins with a comment, whatever its first part is. -/
theorem head?_textOf_preamble (advancedMode : Bool) (features : FeatureSet) :
    (Line.textOf (preamble advancedMode features)).toList.head? = some '#' := by
  obtain ⟨sound, timer, microphone, tiltAngle⟩ := features
  have hall : ∀ advancedMode sound timer microphone tiltAngle : Bool,
      (preamble advancedMode ⟨sound, timer, microphone, tiltAngle⟩).head?.any
        (·.content.toList.head? = some '#') = true := by decide +kernel
  have hline := hall advancedMode sound timer microphone tiltAngle
  cases hlines : preamble advancedMode ⟨sound, timer, microphone, tiltAngle⟩ with
  | nil =>
    rw [hlines] at hline
    cases hline
  | cons line lines =>
    rw [hlines, List.head?_cons, Option.any_some, decide_eq_true_eq] at hline
    rw [Line.toList_textOf_cons, List.head?_append, hline, Option.some_or]

/-- What begins with a comment is found once in front of what has none. -/
theorem existsUnique_front {lead rest : String} (hhead : lead.toList.head? = some '#')
    (hrest : '#' ∉ rest.toList) : ∃! front, ∃ back, lead ++ rest = front ++ lead ++ back := by
  refine ⟨"", ⟨rest, by simp⟩, ?_⟩
  rintro front ⟨back, heq⟩
  have hlists := congrArg String.toList heq
  simp only [String.toList_append] at hlists
  have hcount := congrArg (List.count '#') hlists
  simp only [List.count_append, List.count_eq_zero_of_not_mem hrest] at hcount
  have hfront : '#' ∉ front.toList := List.count_eq_zero.mp (by omega)
  cases hchars : front.toList with
  | nil => exact String.toList_injective (hchars.trans String.toList_empty.symm)
  | cons c cs =>
    have hfirst := congrArg List.head? hlists
    rw [hchars, List.head?_append, hhead] at hfirst
    have hc : c = '#' := by simpa using hfirst.symm
    exact absurd (by simp [hchars, hc]) hfront

end Comments

private theorem getElem?_zero_outline_cons (passage : Passage) (passages : List Passage) :
    (outline (passage :: passages))[0]? = some (.header passage.handler) := by
  rw [outline, List.map_cons, handlersOf, List.map_cons, List.eraseDups_cons, blocksOf,
    List.flatMap_cons, block]
  rfl

namespace Program

variable {program : Program} {script : Script}

private theorem contains_iff_asksFor (h : program.compile = .ok script) (feature : Feature) :
    script.features.contains feature = true ↔ ∃ rule ∈ program.rules, rule.AsksFor feature := by
  obtain ⟨passages, assembly, hread, hpassages, hassembly, _, rfl⟩ := exists_of_compile h
  exact contains_iff_exists_asksFor hread hpassages hassembly feature

private theorem exists_compile_of_perm (h : program.compile = .ok script) {rules : List Rule}
    (hperm : rules.Perm program.rules) :
    ∃ other, (Program.mk rules program.advancedMode).compile = .ok other ∧
      other.features = script.features := by
  have hgood := exists_compile_iff.mp ⟨script, h⟩
  obtain ⟨other, hother⟩ :
      ∃ other, (Program.mk rules program.advancedMode).compile = .ok other :=
    exists_compile_iff.mpr fun rule hrule => hgood rule (hperm.mem_iff.mp hrule)
  refine ⟨other, hother, ?_⟩
  ext feature
  rw [Bool.eq_iff_iff, contains_iff_asksFor hother, contains_iff_asksFor h]
  simp only [hperm.mem_iff]

end Program

namespace Assembly

variable {assembly : Assembly} {passages : List Passage}

private theorem text_of_ne_zero (h : assembly.layout.Realizes passages) {advancedMode : Bool}
    {position : Nat} (hposition : position ≠ 0) {text : String}
    (htext : (assembly.script advancedMode).segments[position]? = some text) :
    (∃ handler, text = (Segment.header handler).text) ∨ text = Segment.stateSync.text ∨
      ∃ passage ∈ passages, text = passage.branch.text := by
  rw [getElem?_script_of_pos h advancedMode (Nat.pos_of_ne_zero hposition),
    Option.map_eq_some_iff] at htext
  obtain ⟨piece, hpiece, rfl⟩ := htext
  have hmem := (outline_perm passages).mem_iff.mp (List.mem_of_getElem? hpiece)
  simp only [List.mem_append, List.mem_map] at hmem
  rcases hmem with ⟨passage, hpassage, rfl⟩ | ⟨handler, _, rfl⟩ | ⟨_, _, rfl⟩
  · exact .inr (.inr ⟨passage, hpassage, rfl⟩)
  · exact .inl ⟨handler, rfl⟩
  · exact .inr (.inl rfl)

private theorem existsUnique_preamble (h : assembly.layout.Realizes passages) (hne : passages ≠ [])
    (advancedMode : Bool) :
    ∃! front, ∃ back, (assembly.script advancedMode).text =
      front ++ Line.textOf (preamble advancedMode assembly.features) ++ back := by
  rw [text_script h hne, Line.textOf_append]
  exact existsUnique_front (head?_textOf_preamble advancedMode assembly.features)
    (sharp_not_mem_textOf fun _ => isCode_of_mem_handlerLines)

end Assembly

namespace Program

variable {program : Program} {script : Script}

theorem supports_of_compile (h : program.compile = .ok script) : script.Supports program := by
  obtain ⟨passages, assembly, hread, hpassages, hassembly, hlayout, heq⟩ := exists_of_compile h
  have hrules := reactions_eq_ok.mp hread
  constructor
  case contains_iff => exact contains_iff_asksFor h
  case perm => exact fun rules => exists_compile_of_perm h
  case first_segment =>
    intro rule hrule
    obtain ⟨rest, hrest⟩ := List.head?_eq_some_iff.mp hrule
    rw [hrest] at hrules
    obtain ⟨reaction, reactions, hreaction, _, hcons⟩ := List.forall₂_cons_left_iff.mp hrules
    obtain ⟨passage, later, rfl, rfl, _⟩ := List.map_eq_cons_iff.mp hcons
    refine ⟨passage.handler, Rule.handler?_of_toReaction hreaction, ?_⟩
    rw [heq]
    exact Assembly.getElem?_zero_script hlayout (getElem?_zero_outline_cons passage later) _
  case other_segment =>
    intro position text hposition htext
    rw [heq] at htext
    rcases Assembly.text_of_ne_zero hlayout hposition htext with
      hheader | hsync | ⟨passage, hpassage, rfl⟩
    · exact .inl hheader
    · exact .inr (.inl hsync)
    · obtain ⟨rule, hrule, hreaction⟩ :=
        exists_of_mem_forall₂ hrules (List.mem_map_of_mem hpassage)
      exact .inr (.inr ⟨rule, hrule, passage.reaction, passage.branch, hreaction, passage.written,
        rfl⟩)
  case once =>
    intro hne
    have hpassages_ne : passages ≠ [] := by
      rintro rfl
      exact hne (List.forall₂_nil_right_iff.mp hrules)
    rw [heq]
    exact Assembly.existsUnique_preamble hlayout hpassages_ne program.advancedMode
  case nil =>
    intro hnil
    rw [hnil, List.forall₂_nil_left_iff] at hrules
    rw [hrules] at hassembly
    cases hassembly
    rw [heq]
    exact ⟨rfl, rfl, rfl⟩

/-- A tap that asks for nothing although its card is one for the accelerometer, and a song that is
played when a timer ends. -/
def timedSong : Program where
  rules := [
    (Rule.ofEvent (.ofKind .accelerometer [0, 3])).withAction (.ofKind .timer [500]),
    (Rule.ofEvent (.ofKind .timeout [])).withAction (.ofKind .sound [256, 257, 258, 259, 260, 512])]
  advancedMode := false

def timedSongScript : Script where
  segments := [
    Line.textOf (preamble false (.insert (.insert .empty .sound) .timer)) ++
      (Segment.header .tap).text,
    "\ttimer.period[0] = 500\n",
    (Segment.header .timeout).text,
    "\tcall math.copy(notes, [262, 311, 370, 440, 524, 262])\n" ++
      "\tcall math.copy(durations, [8, 8, 8, 8, 8, 15])\n" ++
      "\tcall sound.freq(notes[0], durations[0])\n\tnote_index = 1\n"]
  rulePositions := [1, 3]
  features := .insert (.insert .empty .sound) .timer

theorem supports_of_timedSong :
    timedSong.compile = .ok timedSongScript ∧ timedSongScript.Supports timedSong :=
  ⟨by decide +kernel, supports_of_compile (by decide +kernel)⟩

end Program

end VisualRules
