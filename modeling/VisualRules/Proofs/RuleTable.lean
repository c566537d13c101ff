import VisualRules.Proofs.Realization

namespace VisualRules

/-- The segment that holds the code of a rule. -/
def Script.codeOfRule? (script : Script) (rule : Nat) : Option String := do
  script.segments[← script.segmentOfRule? rule]?

/-- What stands in front of the code of a segment: the preamble if it is the first, else nothing. -/
def Script.lead (script : Script) (advancedMode : Bool) (position : Nat) : String :=
  if position = 0 then Line.textOf (preamble advancedMode script.features) else ""

namespace Assembly

theorem getElem?_script (assembly : Assembly) (advancedMode : Bool) (position : Nat) :
    (assembly.script advancedMode).segments[position]? =
      assembly.layout.segments[position]?.map fun segment =>
        (assembly.script advancedMode).lead advancedMode position ++ segment.text := by
  rw [script, List.getElem?_modifyHead, Layout.texts, List.getElem?_map, Script.lead]
  by_cases hzero : position = 0
  · rw [if_pos hzero, if_pos hzero, Option.map_map]
    rfl
  · rw [if_neg hzero, if_neg hzero]
    simp only [String.empty_append]

theorem length_script (assembly : Assembly) (advancedMode : Bool) :
    (assembly.script advancedMode).segments.length = assembly.layout.size := by
  rw [script, List.length_modifyHead, Layout.texts, List.length_map, Layout.size]

end Assembly

theorem eq_header_of_getElem?_zero {passages : List Passage} {piece : Piece}
    (h : (outline passages)[0]? = some piece) : ∃ handler, piece = .header handler := by
  cases hhandlers : handlersOf (passages.map Passage.reaction) with
  | nil => simp [outline, hhandlers, blocksOf] at h
  | cons handler handlers =>
    refine ⟨handler, ?_⟩
    rw [outline, hhandlers, blocksOf, List.flatMap_cons, block] at h
    simpa using h.symm

/-- The script has one segment for each rule of the program and knows which, and has no segments
beyond these but what opens and closes handlers. -/
structure RuleTable (program : Program) (reactions : List Reaction) (script : Script) : Prop where
  length_rules : script.rulePositions.length = program.rules.length
  branch_of_rule : ∀ (number : Nat) (rule : Rule), program.rules[number]? = some rule →
    ∃ (reaction : Reaction) (branch : Branch) (position : Nat),
      rule.toReaction program.advancedMode = .ok reaction ∧ reaction.branch = .ok branch ∧
        script.rulePositions[number]? = some position ∧
          script.segments[position]? = some branch.text
  nodup : script.rulePositions.Nodup
  zero_not_mem : 0 ∉ script.rulePositions
  other_segment : ∀ (position : Nat) (text : String), script.segments[position]? = some text →
    position ∉ script.rulePositions →
      (∃ handler ∈ handlersOf reactions,
        text = script.lead program.advancedMode position ++ (Segment.header handler).text) ∨
      text = Segment.stateSync.text
  length_segments : script.segments.length =
    program.rules.length + (handlersOf reactions).length +
      ((handlersOf reactions).filter (opensAdvanced reactions)).length

namespace Layout.Realizes

variable {layout : Layout} {passages : List Passage}

private theorem zero_not_mem_rules (h : layout.Realizes passages)
    (hnodup : (passages.map Passage.number).Nodup) : 0 ∉ layout.rules := by
  intro hzero
  obtain ⟨passage, hget⟩ := (h.mem_rules_iff hnodup).mp hzero
  obtain ⟨handler, heq⟩ := eq_header_of_getElem?_zero hget
  have hnone := congrArg Piece.passage? heq
  simp at hnone

private theorem size_eq_sum (h : layout.Realizes passages) :
    layout.size = passages.length + (handlersOf (passages.map Passage.reaction)).length +
      ((handlersOf (passages.map Passage.reaction)).filter
        (opensAdvanced (passages.map Passage.reaction))).length := by
  rw [h.size_eq, (outline_perm passages).length_eq, List.length_append, List.length_append,
    List.length_map, List.length_map, List.length_map, Nat.add_assoc]

end Layout.Realizes

namespace Assembly

variable {assembly : Assembly} {passages : List Passage}

theorem text_of_rule (h : assembly.layout.Realizes passages)
    (hnodup : (passages.map Passage.number).Nodup) (advancedMode : Bool) {index : Nat}
    {passage : Passage} (hget : passages[index]? = some passage) :
    ∃ position, assembly.layout.rules[index]? = some position ∧
      (assembly.script advancedMode).segments[position]? = some passage.branch.text := by
  have hposition := h.getElem?_rules hget
  have hpiece := getElem?_findIdx_isRule hnodup (List.mem_of_getElem? hget)
  have hne : (outline passages).findIdx (Piece.isRule passage.number) ≠ 0 := fun hzero =>
    h.zero_not_mem_rules hnodup (List.mem_of_getElem? (hzero ▸ hposition))
  refine ⟨_, hposition, ?_⟩
  rw [getElem?_script, h.getElem?_segments, hpiece, Script.lead, if_neg hne]
  simp only [Option.map_some, String.empty_append]
  rfl

/-- A segment of no rule opens or closes a handler. -/
theorem text_of_not_mem_rules (h : assembly.layout.Realizes passages)
    (hnodup : (passages.map Passage.number).Nodup) {advancedMode : Bool} {position : Nat}
    {text : String} (hget : (assembly.script advancedMode).segments[position]? = some text)
    (hrule : position ∉ assembly.layout.rules) :
    (∃ handler ∈ handlersOf (passages.map Passage.reaction),
      text = (assembly.script advancedMode).lead advancedMode position ++
        (Segment.header handler).text) ∨
    text = Segment.stateSync.text := by
  rw [getElem?_script, Option.map_eq_some_iff] at hget
  obtain ⟨segment, hsegment, rfl⟩ := hget
  rcases h.segment_of_not_mem_rules hnodup hsegment hrule with ⟨handler, hhandler, rfl⟩ | rfl
  · exact .inl ⟨handler, hhandler, rfl⟩
  · have hne : position ≠ 0 := by
      intro hzero
      rw [hzero, h.getElem?_segments, Option.map_eq_some_iff] at hsegment
      obtain ⟨piece, hpiece, hsync⟩ := hsegment
      obtain ⟨handler, hheader⟩ := eq_header_of_getElem?_zero hpiece
      rw [hheader] at hsync
      cases hsync
    refine .inr ?_
    rw [Script.lead, if_neg hne, String.empty_append]

end Assembly

namespace Program

theorem exists_codeOfRule {program : Program} {script : Script} (h : program.compile = .ok script)
    {number : Nat} {rule : Rule} (hrule : program.rules[number]? = some rule) :
    ∃ reaction branch, rule.toReaction program.advancedMode = .ok reaction ∧
      reaction.branch = .ok branch ∧ script.codeOfRule? number = some branch.text := by
  obtain ⟨passages, assembly, hreactions, hpassages, _, hlayout, rfl⟩ := exists_of_compile h
  obtain ⟨reaction, hreaction, hread⟩ :=
    exists_getElem?_of_forall₂ (reactions_eq_ok.mp hreactions) hrule
  obtain ⟨passage, hpassage, rfl⟩ := hpassages.exists_of_getElem? hreaction
  obtain ⟨position, hposition, htext⟩ :=
    Assembly.text_of_rule hlayout hpassages.nodup program.advancedMode hpassage
  refine ⟨passage.reaction, passage.branch, hread, passage.written, ?_⟩
  exact Option.bind_eq_some_iff.mpr ⟨position, hposition, htext⟩

/-- Compiling a program gives a script with a faithful rule table. -/
theorem ruleTable_of_compile {program : Program} {script : Script}
    (h : program.compile = .ok script) :
    ∃ reactions, program.reactions = .ok reactions ∧ RuleTable program reactions script := by
  obtain ⟨passages, assembly, hreactions, hpassages, _, hlayout, rfl⟩ := exists_of_compile h
  have hforall := reactions_eq_ok.mp hreactions
  have hlength : passages.length = program.rules.length := by
    rw [hforall.length_eq, List.length_map]
  refine ⟨_, hreactions, ?_⟩
  constructor
  case length_rules =>
    rw [← hlength]
    exact hlayout.length_rules
  case branch_of_rule =>
    intro number rule hrule
    obtain ⟨reaction, hreaction, hread⟩ := exists_getElem?_of_forall₂ hforall hrule
    obtain ⟨passage, hpassage, rfl⟩ := hpassages.exists_of_getElem? hreaction
    obtain ⟨position, hposition, htext⟩ :=
      Assembly.text_of_rule hlayout hpassages.nodup program.advancedMode hpassage
    exact ⟨passage.reaction, passage.branch, position, hread, passage.written, hposition, htext⟩
  case nodup => exact hlayout.nodup_rules hpassages.nodup
  case zero_not_mem => exact hlayout.zero_not_mem_rules hpassages.nodup
  case other_segment =>
    intro position text htext hrule
    exact Assembly.text_of_not_mem_rules hlayout hpassages.nodup htext hrule
  case length_segments => rw [Assembly.length_script, hlayout.size_eq_sum, hlength]

/-- The third rule goes in front of the first one, and the fourth opens a third handler. -/
def interleaved : Program where
  rules := [
    (Rule.ofEvent (.ofKind .buttons [1, 0, 0, 0, 0])).withAction (.ofKind .topColor [32, 0, 0]),
    (Rule.ofEvent (.ofKind .clap [])).withAction (.ofKind .topColor [0, 32, 0]),
    (Rule.ofEvent (.ofKind .buttons [0, 0, 0, 0, 0])).withAction (.ofKind .topColor [0, 0, 0]),
    ((Rule.ofEvent (.ofKind .tap [])).withAction (.ofKind .setState [1, 0, 0, 0])).withAdvanced
      true]
  advancedMode := true

def interleavedScript : Script where
  segments := [
    Line.textOf (preamble true (.insert .empty .microphone)) ++ (Segment.header .buttons).text,
    "\tcall leds.top(0,0,0)\n",
    "\tif button.forward == 1 then\n\t\tcall leds.top(32,0,0)\n\tend\n",
    (Segment.header .clap).text,
    "\tcall leds.top(0,32,0)\n",
    (Segment.header .tap).text,
    "\tnew_state[0] = 1\n",
    Segment.stateSync.text]
  rulePositions := [2, 4, 1, 6]
  features := .insert .empty .microphone

theorem ruleTable_of_interleaved :
    interleaved.compile = .ok interleavedScript ∧
      ∃ reactions, interleaved.reactions = .ok reactions ∧
        RuleTable interleaved reactions interleavedScript :=
  ⟨by decide +kernel, ruleTable_of_compile (by decide +kernel)⟩

end Program

end VisualRules
