import Mathlib.Data.Finset.Card
import Mathlib.Order.Monotone.Basic
import VisualRules.Proofs.RuleTable
import VisualRules.Proofs.SupportCode

namespace VisualRules

/-- The segments that a rule below the others adds: its own, and what opens and closes its handler
if none of the others belongs to it. -/
def segmentsAdded (rules : List Rule) (rule : Rule) : Nat :=
  if ∃ earlier ∈ rules, earlier.handler? = rule.handler? then 1
  else if rule.isAdvanced then 3 else 2

/-- Each segment is found again where `f` moves it, and `added` others have joined them. -/
structure Script.GrowsInto (script grown : Script) (advancedMode : Bool) (f : Nat → Nat)
    (added : Nat) : Prop where
  strictMono : StrictMono f
  zero_eq : f 0 = 0
  lt_length : ∀ position < script.segments.length, f position < grown.segments.length
  segment_eq : ∀ position, 1 ≤ position → position < script.segments.length →
    grown.segments[f position]? = script.segments[position]?
  first_eq : ∃ handler,
    script.segments[0]? =
      some (Line.textOf (preamble advancedMode script.features) ++ (Segment.header handler).text) ∧
    grown.segments[0]? =
      some (Line.textOf (preamble advancedMode grown.features) ++ (Segment.header handler).text)
  rulePositions_eq : ∃ position, grown.rulePositions = script.rulePositions.map f ++ [position]
  features_le : ∀ feature, script.features.contains feature = true →
    grown.features.contains feature = true
  card_eq : (Finset.range grown.segments.length \
    (Finset.range script.segments.length).image f).card = added

section Outline

variable {passages : List Passage} {passage : Passage}

private theorem strictMono_shiftFrom (start : Nat) : StrictMono (shiftFrom start) := by
  intro one other h
  exact shiftFrom_lt_shiftFrom_iff.mpr h

theorem getElem?_insertIdx_shiftFrom {α : Type} {l : List α} {k : Nat} (x : α) (position : Nat) :
    (l.insertIdx k x)[shiftFrom k position]? = l[position]? := by
  rw [List.getElem?_insertIdx]
  unfold shiftFrom
  split
  · rw [if_neg (by omega), if_neg (by omega), Nat.add_sub_cancel]
  · rw [if_pos (by omega)]

/-- One more rule moves the pieces apart. The first one stays, since it is a header and a rule goes
behind the header of its handler. -/
theorem exists_strictMono_outline_push (passages : List Passage) (passage : Passage) :
    ∃ f : Nat → Nat, StrictMono f ∧ f 0 = 0 ∧ ∀ position < (outline passages).length,
      (outline (passages ++ [passage]))[f position]? = (outline passages)[position]? := by
  by_cases hmem : passage.handler ∈ handlersOf (passages.map Passage.reaction)
  · obtain ⟨before, after, hsplit⟩ := List.append_of_mem hmem
    refine ⟨shiftFrom ((blocksOf before passages).length + 1 +
      Chapter.slot (entriesOf passage.handler passages) passage), strictMono_shiftFrom _, ?_, ?_⟩
    · rw [shiftFrom, if_neg (by omega)]
    · intro position _
      rw [outline_push_of_split hsplit, getElem?_insertIdx_shiftFrom]
  · refine ⟨id, strictMono_id, rfl, ?_⟩
    intro position hposition
    rw [outline_push_of_not_mem hmem]
    exact List.getElem?_append_left hposition

private theorem length_outline_push (passages : List Passage) (passage : Passage) :
    (outline (passages ++ [passage])).length = (outline passages).length +
      if passage.handler ∈ handlersOf (passages.map Passage.reaction) then 1
      else if passage.reaction.isAdvanced then 3 else 2 := by
  by_cases hmem : passage.handler ∈ handlersOf (passages.map Passage.reaction)
  · obtain ⟨before, after, hsplit⟩ := List.append_of_mem hmem
    rw [if_pos hmem, outline_push_of_split hsplit,
      List.length_insertIdx_of_le_length (slot_le_length_outline hsplit)]
  · rw [if_neg hmem, outline_push_of_not_mem hmem, List.length_append, block_opening]
    cases passage.reaction.isAdvanced <;> rfl

private theorem exists_getElem?_zero_outline (hne : passages ≠ []) :
    ∃ handler, (outline passages)[0]? = some (.header handler) := by
  obtain ⟨passage, hpassage⟩ := List.exists_mem_of_ne_nil _ hne
  have hget := List.getElem?_eq_getElem (List.length_pos_of_mem (ofPassage_mem_outline hpassage))
  obtain ⟨handler, hhandler⟩ := eq_header_of_getElem?_zero hget
  rw [hhandler] at hget
  exact ⟨handler, hget⟩

end Outline

private theorem card_range_sdiff_image {f : Nat → Nat} (hf : StrictMono f) {size added : Nat}
    (h : ∀ position < size, f position < size + added) :
    (Finset.range (size + added) \ (Finset.range size).image f).card = added := by
  have hsubset : (Finset.range size).image f ⊆ Finset.range (size + added) := by
    intro position hposition
    obtain ⟨earlier, hearlier, rfl⟩ := Finset.mem_image.mp hposition
    exact Finset.mem_range.mpr (h earlier (Finset.mem_range.mp hearlier))
  rw [Finset.card_sdiff_of_subset hsubset, Finset.card_image_of_injective _ hf.injective,
    Finset.card_range, Finset.card_range, Nat.add_sub_cancel_left]

namespace Layout.Realizes

variable {layout grown : Layout} {passages : List Passage} {passage : Passage} {f : Nat → Nat}

private theorem rules_push (h : layout.Realizes passages)
    (h' : grown.Realizes (passages ++ [passage]))
    (hnodup : ((passages ++ [passage]).map Passage.number).Nodup)
    (hf : ∀ position < (outline passages).length,
      (outline (passages ++ [passage]))[f position]? = (outline passages)[position]?) :
    ∃ position, grown.rules = layout.rules.map f ++ [position] := by
  have hnumbers := (nodup_numbers_push.mp hnodup).2
  refine ⟨(outline (passages ++ [passage])).findIdx (Piece.isRule passage.number), ?_⟩
  rw [h'.rules_eq, h.rules_eq]
  simp only [List.map_append, List.map_singleton, List.map_map]
  congr 1
  apply List.map_congr_left
  intro other hother
  have hget := getElem?_findIdx_isRule hnumbers hother
  obtain ⟨hlt, _⟩ := List.getElem?_eq_some_iff.mp hget
  have hmoved := hf _ hlt
  rw [hget] at hmoved
  exact findIdx_isRule hnodup hmoved (by simp [Piece.isRule])

end Layout.Realizes

namespace Assembly

variable {assembly grown : Assembly} {passages : List Passage} {passage : Passage}

private theorem length_segments (h : assembly.layout.Realizes passages) (advancedMode : Bool) :
    (assembly.script advancedMode).segments.length = (outline passages).length := by
  rw [length_script, h.size_eq]

theorem getElem?_zero_script {handler : Handler} (h : assembly.layout.Realizes passages)
    (hheader : (outline passages)[0]? = some (.header handler)) (advancedMode : Bool) :
    (assembly.script advancedMode).segments[0]? =
      some (Line.textOf (preamble advancedMode assembly.features) ++
        (Segment.header handler).text) := by
  rw [getElem?_script, h.getElem?_segments, hheader, Script.lead, if_pos rfl]
  rfl

theorem getElem?_script_of_pos (h : assembly.layout.Realizes passages) (advancedMode : Bool)
    {position : Nat} (hpos : 0 < position) :
    (assembly.script advancedMode).segments[position]? =
      (outline passages)[position]?.map fun piece => piece.segment.text := by
  rw [getElem?_script, h.getElem?_segments, Script.lead, if_neg (by omega), Option.map_map]
  simp [Function.comp_def]

private theorem contains_of_prefix {reactions added : List Reaction} {later : List Passage}
    (hpassages : Transcribes passages reactions) (hlater : Transcribes later (reactions ++ added))
    (h : ofReactions reactions = .ok assembly) (h' : ofReactions (reactions ++ added) = .ok grown)
    {feature : Feature} (hcontains : assembly.features.contains feature = true) :
    grown.features.contains feature = true := by
  obtain ⟨reaction, hmem, hneeds⟩ := (contains_features_iff hpassages h feature).mp hcontains
  exact (contains_features_iff hlater h' feature).mpr
    ⟨reaction, List.mem_append_left _ hmem, hneeds⟩

private theorem exists_growsInto (hpassages : Transcribes (passages ++ [passage])
      ((passages ++ [passage]).map Passage.reaction)) (hne : passages ≠ [])
    (h : assembly.layout.Realizes passages) (h' : grown.layout.Realizes (passages ++ [passage]))
    (hassembly : ofReactions (passages.map Passage.reaction) = .ok assembly)
    (hgrown : ofReactions ((passages ++ [passage]).map Passage.reaction) = .ok grown)
    (advancedMode : Bool) :
    ∃ f, (assembly.script advancedMode).GrowsInto (grown.script advancedMode) advancedMode f
      (if passage.handler ∈ handlersOf (passages.map Passage.reaction) then 1
        else if passage.reaction.isAdvanced then 3 else 2) := by
  obtain ⟨f, hmono, hzero, hmoved⟩ := exists_strictMono_outline_push passages passage
  have hlt : ∀ position < (outline passages).length,
      f position < (outline (passages ++ [passage])).length := by
    intro position hposition
    have hget := hmoved position hposition
    rw [List.getElem?_eq_getElem hposition] at hget
    exact (List.getElem?_eq_some_iff.mp hget).1
  obtain ⟨handler, hheader⟩ := exists_getElem?_zero_outline hne
  have hheader' : (outline (passages ++ [passage]))[0]? = some (.header handler) := by
    have hkept := hmoved 0 (List.getElem?_eq_some_iff.mp hheader).1
    rwa [hzero, hheader] at hkept
  refine ⟨f, hmono, hzero, ?_, ?_, ⟨handler, ?_, ?_⟩, ?_, ?_, ?_⟩
  · rw [length_segments h, length_segments h']
    exact hlt
  · intro position hpos hposition
    rw [length_segments h] at hposition
    have hpos' : 0 < f position := by
      rw [← hzero]
      exact hmono hpos
    rw [getElem?_script_of_pos h _ hpos, getElem?_script_of_pos h' _ hpos',
      hmoved position hposition]
  · exact getElem?_zero_script h hheader advancedMode
  · exact getElem?_zero_script h' hheader' advancedMode
  · exact h.rules_push h' hpassages.nodup hmoved
  · intro feature
    rw [List.map_append] at hpassages hgrown
    exact contains_of_prefix hpassages.of_push.1 hpassages hassembly hgrown
  · rw [length_segments h, length_segments h', length_outline_push]
    apply card_range_sdiff_image hmono
    rw [← length_outline_push]
    exact hlt

end Assembly

namespace Program

variable {program : Program} {rule : Rule}

private theorem segmentsAdded_eq {advancedMode : Bool} {rules : List Rule} {passages : List Passage}
    {passage : Passage}
    (hrules : List.Forall₂ (fun rule reaction => rule.toReaction advancedMode = .ok reaction)
      rules (passages.map Passage.reaction))
    (hrule : rule.toReaction advancedMode = .ok passage.reaction) :
    segmentsAdded rules rule =
      if passage.handler ∈ handlersOf (passages.map Passage.reaction) then 1
      else if passage.reaction.isAdvanced then 3 else 2 := by
  have hhandler := Rule.handler?_of_toReaction hrule
  have hadvanced := (Rule.read_eq_ok.mp (Rule.toReaction_eq_ok.mp hrule).1).2.2.2.2
  have hused : passage.handler ∈ handlersOf (passages.map Passage.reaction) ↔
      ∃ earlier ∈ rules, earlier.handler? = some passage.handler :=
    mem_handlersOf_iff_exists_rule hrules
  unfold segmentsAdded
  simp only [hhandler, hadvanced, hused]

/-- A rule that is put below the others leaves them as they are. -/
theorem growsInto_of_push {grown : Script} (hne : program.rules ≠ [])
    (h : (program.push rule).compile = .ok grown) :
    ∃ script f, program.compile = .ok script ∧
      script.GrowsInto grown program.advancedMode f (segmentsAdded program.rules rule) := by
  obtain ⟨read, assembly', hread, hpassages, hgrown, hlayout', rfl⟩ := exists_of_compile h
  obtain ⟨passages, last, rfl, habove, hlast⟩ := exists_append_of_forall₂
    (List.forall₂_map_right_iff.mp (reactions_eq_ok.mp hread))
  obtain ⟨passage, rest, hrule, hrest, rfl⟩ := List.forall₂_cons_left_iff.mp hlast
  cases hrest
  have hrules : List.Forall₂ (fun rule reaction =>
      rule.toReaction program.advancedMode = .ok reaction)
      program.rules (passages.map Passage.reaction) := List.forall₂_map_right_iff.mpr habove
  have hfront := hpassages.of_push.1
  have hread' : program.reactions = .ok (passages.map Passage.reaction) :=
    reactions_eq_ok.mpr hrules
  obtain ⟨assembly, hassembly, hlayout, hcompile⟩ := exists_compile_of_transcribes hread' hfront
  have hfront_ne : passages ≠ [] := by
    rintro rfl
    exact hne (List.forall₂_nil_right_iff.mp hrules)
  obtain ⟨f, hgrows⟩ := Assembly.exists_growsInto hpassages hfront_ne hlayout hlayout' hassembly
    hgrown program.advancedMode
  refine ⟨_, f, hcompile, ?_⟩
  rw [segmentsAdded_eq hrules hrule]
  exact hgrows

/-- A special case of one handler, and an advanced rule that opens another. -/
def lightAndCount : Program where
  rules := [
    (Rule.ofEvent (.ofKind .buttons [1, 0, 0, 0, 0])).withAction (.ofKind .topColor [32, 0, 0]),
    ((Rule.ofEvent (.ofKind .tap [])).withAction (.ofKind .setState [1, 0, 0, 0])).withAdvanced
      true]
  advancedMode := true

/-- The default of the first handler, with a melody. -/
def melody : Rule :=
  (Rule.ofEvent (.ofKind .buttons [0, 0, 0, 0, 0])).withAction
    (.ofKind .sound [256, 257, 258, 259, 260, 512])

def melodyScript : Script where
  segments := [
    Line.textOf (preamble true (.insert .empty .sound)) ++ (Segment.header .buttons).text,
    "\tcall math.copy(notes, [262, 311, 370, 440, 524, 262])\n" ++
      "\tcall math.copy(durations, [8, 8, 8, 8, 8, 15])\n" ++
      "\tcall sound.freq(notes[0], durations[0])\n\tnote_index = 1\n",
    "\tif button.forward == 1 then\n\t\tcall leds.top(32,0,0)\n\tend\n",
    (Segment.header .tap).text,
    "\tnew_state[0] = 1\n",
    Segment.stateSync.text]
  rulePositions := [2, 4, 1]
  features := .insert .empty .sound

theorem growsInto_of_melody :
    lightAndCount.rules ≠ [] ∧ (lightAndCount.push melody).compile = .ok melodyScript ∧
      ∃ script f, lightAndCount.compile = .ok script ∧
        script.GrowsInto melodyScript true f (segmentsAdded lightAndCount.rules melody) :=
  have hcompile : (lightAndCount.push melody).compile = .ok melodyScript := by decide +kernel
  ⟨by decide, hcompile, growsInto_of_push (by decide) hcompile⟩

end Program

end VisualRules
