import VisualRules.Proofs.Realization

/-!
# The order within a handler

Rules are put into a handler one by one. In a handler of plain rules the result is a stable
partition, defaults before special cases; in a handler of advanced rules nothing is reordered.
-/

namespace VisualRules

/-- Defaults before special cases: first the rules whose event asks for nothing. -/
def defaultsFirst (passages : List Passage) : List Passage :=
  passages.filter (fun passage => !passage.reaction.event.isSet) ++
    passages.filter fun passage => passage.reaction.event.isSet

/-- The rule is basic and has no state filter. -/
def Passage.IsPlain (passage : Passage) : Prop :=
  passage.reaction.isAdvanced = false ∧ passage.reaction.stateFilter = none

namespace Chapter

private theorem extend_of_basic (entries : List Entry) {passage : Passage}
    (h : passage.reaction.isAdvanced = false) :
    extend entries passage = entries.insertIdx (slot entries passage) (.rule passage) := by
  cases entries with
  | nil =>
    rw [extend, opening, slot, h]
    simp
  | cons entry entries => rfl

private theorem findIdx_isConditional {defaults cases : List Passage}
    (hdefaults : ∀ passage ∈ defaults, passage.branch.conditional = false)
    (hcases : ∀ passage ∈ cases, passage.branch.conditional = true) :
    ((defaults ++ cases).map Entry.rule).findIdx Entry.isConditional = defaults.length := by
  have hnone : ∀ entry ∈ defaults.map Entry.rule, entry.isConditional = false := by
    intro entry hentry
    obtain ⟨passage, hpassage, rfl⟩ := List.mem_map.mp hentry
    exact hdefaults passage hpassage
  rw [List.map_append, List.findIdx_append, List.findIdx_eq_length_of_false hnone,
    if_neg (by omega), List.length_map]
  cases cases with
  | nil => simp
  | cons passage cases => simp [List.findIdx_cons, hcases passage]

private theorem extend_defaultsFirst {passages : List Passage} {passage : Passage}
    (hpassages : ∀ other ∈ passages, other.IsPlain) (hpassage : passage.IsPlain) :
    extend ((defaultsFirst passages).map .rule) passage =
      (defaultsFirst (passages ++ [passage])).map .rule := by
  have hconditional : ∀ other ∈ passages,
      other.branch.conditional = other.reaction.event.isSet := by
    intro other hother
    rw [other.conditional_eq, Reaction.isConditional_of_unfiltered (hpassages other hother).2]
  rw [extend_of_basic _ hpassage.1, slot, hpassage.1, if_neg (by decide)]
  cases hset : passage.reaction.event.isSet with
  | true =>
    rw [if_pos rfl, List.insertIdx_length_self]
    simp [defaultsFirst, hset]
  | false =>
    have hslot : ((defaultsFirst passages).map Entry.rule).findIdx Entry.isConditional =
        (passages.filter fun other => !other.reaction.event.isSet).length := by
      apply findIdx_isConditional
      · intro other hother
        rw [List.mem_filter] at hother
        rw [hconditional other hother.1]
        simpa using hother.2
      · intro other hother
        rw [List.mem_filter] at hother
        rw [hconditional other hother.1]
        exact hother.2
    rw [if_neg (by decide), hslot, defaultsFirst, List.map_append, ← List.length_map Entry.rule,
      insertIdx_append_length]
    simp [defaultsFirst, hset]

theorem ofPassages_of_plain {passages : List Passage}
    (h : ∀ passage ∈ passages, passage.IsPlain) :
    ofPassages passages = (defaultsFirst passages).map .rule := by
  induction passages using List.reverseRecOn with
  | nil => rfl
  | append_singleton passages passage ih =>
    have hpassages : ∀ other ∈ passages, other.IsPlain := fun other hother =>
      h other (List.mem_append_left _ hother)
    rw [ofPassages_push, ih hpassages, extend_defaultsFirst hpassages (h passage (by simp))]

private theorem ofPassages_of_advanced {passages : List Passage} (hne : passages ≠ [])
    (h : ∀ passage ∈ passages, passage.reaction.isAdvanced = true) :
    ofPassages passages = passages.map .rule ++ [.stateSync] := by
  induction passages using List.reverseRecOn with
  | nil => exact absurd rfl hne
  | append_singleton passages passage ih =>
    have hpassage := h passage (by simp)
    rw [ofPassages_push]
    by_cases hnil : passages = []
    · subst hnil
      rw [ofPassages_nil, extend, opening, if_pos hpassage]
      rfl
    · rw [ih hnil fun other hother => h other (List.mem_append_left _ hother),
        extend_of_ne_nil (by simp), slot, if_pos hpassage, List.length_append,
        List.length_singleton, Nat.add_sub_cancel, insertIdx_append_length]
      simp

end Chapter

/-- The handler is its header, these rules in this order, and what closes it; and the layout knows
where each of the rules is. -/
structure Layout.Arranges (layout : Layout) (handler : Handler) (passages : List Passage)
    (closing : List Segment) : Prop where
  segments_eq : layout.handlerSegments handler =
    .header handler :: (passages.map Passage.segment ++ closing)
  position_eq : ∀ (slot : Nat) (passage : Passage), passages[slot]? = some passage →
    ∃ span, layout.span? handler = some span ∧
      layout.rules[passage.number]? = some (span.header + 1 + slot)

/-- The script is one block after the other, in the order of the first rules of the handlers. A
handler of plain rules has its defaults first; one of advanced rules keeps their order and closes
with a state snapshot. -/
structure HandlerOrder (program : Program) (passages : List Passage) (layout : Layout)
    (script : Script) : Prop where
  segments_eq : script.segments =
    ((handlersOf (passages.map Passage.reaction)).flatMap fun handler =>
      (layout.handlerSegments handler).map Segment.text).modifyHead
        (Line.textOf (preamble program.advancedMode script.features) ++ ·)
  positions_eq : script.rulePositions = layout.rules
  block : ∀ handler ∈ handlersOf (passages.map Passage.reaction),
    ∃ rest, layout.handlerSegments handler = .header handler :: rest ∧
      rest.Perm ((ofHandler handler passages).map Passage.segment ++
        if opensAdvanced (passages.map Passage.reaction) handler then [.stateSync] else [])
  plain : ∀ handler ∈ handlersOf (passages.map Passage.reaction),
    (program.advancedMode = false ∨ ∀ passage ∈ ofHandler handler passages, passage.IsPlain) →
      layout.Arranges handler (defaultsFirst (ofHandler handler passages)) []
  advanced : ∀ handler ∈ handlersOf (passages.map Passage.reaction),
    (∀ passage ∈ ofHandler handler passages, passage.reaction.isAdvanced = true) →
      layout.Arranges handler (ofHandler handler passages) [.stateSync]

private theorem opensAdvanced_eq_head? (handler : Handler) (passages : List Passage) :
    opensAdvanced (passages.map Passage.reaction) handler =
      (ofHandler handler passages).head?.any (·.reaction.isAdvanced) := by
  rw [opensAdvanced, ofHandler, List.head?_filter, List.find?_map, Option.any_map]
  rfl

namespace Layout.Realizes

variable {layout : Layout} {passages order : List Passage} {handler : Handler}

private theorem block_perm (h : layout.Realizes passages)
    (hmem : handler ∈ handlersOf (passages.map Passage.reaction)) :
    ∃ rest, layout.handlerSegments handler = .header handler :: rest ∧
      rest.Perm ((ofHandler handler passages).map Passage.segment ++
        if opensAdvanced (passages.map Passage.reaction) handler then [.stateSync] else []) := by
  refine ⟨_, h.handlerSegments_eq hmem, ?_⟩
  have hperm := (Chapter.ofPassages_perm (ofHandler handler passages)).map Entry.segment
  rw [← entriesOf, List.map_append, List.map_map, ← opensAdvanced_eq_head?] at hperm
  refine hperm.trans (List.Perm.append_left _ ?_)
  split
  · exact List.Perm.refl _
  · exact List.Perm.refl _

/-- The entries of a handler say what it is arranged like. -/
theorem arranges (h : layout.Realizes passages)
    (hpassages : Transcribes passages (passages.map Passage.reaction))
    (hmem : handler ∈ handlersOf (passages.map Passage.reaction)) {closing : List Entry}
    (hentries : entriesOf handler passages = order.map .rule ++ closing) :
    layout.Arranges handler order (closing.map Entry.segment) where
  segments_eq := by
    rw [h.handlerSegments_eq hmem, hentries, List.map_append, List.map_map]
    rfl
  position_eq slot passage hslot := by
    obtain ⟨before, after, hsplit⟩ := List.append_of_mem hmem
    obtain ⟨hlt, _⟩ := List.getElem?_eq_some_iff.mp hslot
    have hentry : (entriesOf handler passages)[slot]? = some (.rule passage) := by
      rw [hentries, List.getElem?_append_left (by rw [List.length_map]; exact hlt),
        List.getElem?_map, hslot, Option.map_some]
    have hpassage := (rule_mem_entriesOf.mp (List.mem_of_getElem? hentry)).1
    obtain ⟨index, hindex⟩ := List.mem_iff_getElem?.mp hpassage
    refine ⟨_, h.span?_of_split hsplit, ?_⟩
    rw [hpassages.number_of_getElem? hindex]
    exact h.getElem?_rules_of_entry hpassages.nodup hindex hsplit hentry

end Layout.Realizes

namespace Program

theorem isPlain_of_basic {program : Program} {passages : List Passage}
    (hread : program.reactions = .ok (passages.map Passage.reaction))
    (hmode : program.advancedMode = false) : ∀ passage ∈ passages, passage.IsPlain := by
  intro passage hpassage
  obtain ⟨rule, _, hrule⟩ := exists_of_mem_forall₂ (reactions_eq_ok.mp hread)
    (List.mem_map_of_mem hpassage)
  have hstate := (Rule.toReaction_eq_ok.mp hrule).2
  rw [hmode] at hstate
  have huses : passage.reaction.usesState = false := by simpa using hstate
  rw [Reaction.usesState, Bool.or_eq_false_iff, Bool.or_eq_false_iff] at huses
  obtain ⟨⟨hadvanced, hfilter⟩, _⟩ := huses
  exact ⟨hadvanced, by simpa using hfilter⟩

/-- What a script looks like, handler by handler. -/
theorem handlerOrder_of_compile {program : Program} {script : Script}
    (h : program.compile = .ok script) :
    ∃ passages assembly, program.reactions = .ok (passages.map Passage.reaction) ∧
      Transcribes passages (passages.map Passage.reaction) ∧
      Assembly.ofReactions (passages.map Passage.reaction) = .ok assembly ∧
      HandlerOrder program passages assembly.layout script := by
  obtain ⟨passages, assembly, hread, hpassages, hassembly, hlayout, rfl⟩ := exists_of_compile h
  refine ⟨passages, assembly, hread, hpassages, hassembly, ?_⟩
  constructor
  case segments_eq =>
    rw [Assembly.script, Layout.texts, hlayout.segments_eq_flatMap, List.map_flatMap]
  case positions_eq => rfl
  case block => exact fun handler hmem => hlayout.block_perm hmem
  case plain =>
    intro handler hmem hplain
    have hall : ∀ passage ∈ ofHandler handler passages, passage.IsPlain := by
      rcases hplain with hmode | hplain
      · intro passage hpassage
        exact isPlain_of_basic hread hmode passage (List.mem_filter.mp hpassage).1
      · exact hplain
    have hentries := Chapter.ofPassages_of_plain hall
    rw [← entriesOf, ← List.append_nil ((defaultsFirst _).map _)] at hentries
    exact hlayout.arranges hpassages hmem hentries
  case advanced =>
    intro handler hmem hadvanced
    have hentries := Chapter.ofPassages_of_advanced (ofHandler_ne_nil_iff.mpr hmem) hadvanced
    exact hlayout.arranges hpassages hmem hentries

/-- A handler of plain rules and one of advanced rules, one rule of each in turn. -/
def inTurn : Program where
  rules := [
    (Rule.ofEvent (.ofKind .buttons [1, 0, 0, 0, 0])).withAction (.ofKind .topColor [32, 0, 0]),
    ((Rule.ofEvent (.ofKind .tap [])).withAction (.ofKind .setState [1, 0, 0, 0])).withAdvanced
      true,
    (Rule.ofEvent (.ofKind .buttons [0, 0, 0, 0, 0])).withAction (.ofKind .topColor [0, 0, 0]),
    ((Rule.ofEvent (.ofKind .tap [])).withAction (.ofKind .setState [2, 0, 0, 0])).withAdvanced
      true]
  advancedMode := true

def inTurnScript : Script where
  segments := [
    Line.textOf (preamble true .empty) ++ (Segment.header .buttons).text,
    "\tcall leds.top(0,0,0)\n",
    "\tif button.forward == 1 then\n\t\tcall leds.top(32,0,0)\n\tend\n",
    (Segment.header .tap).text,
    "\tnew_state[0] = 1\n",
    "\tnew_state[0] = 0\n",
    Segment.stateSync.text]
  rulePositions := [2, 4, 1, 5]
  features := .empty

theorem handlerOrder_of_inTurn :
    inTurn.compile = .ok inTurnScript ∧
      ∃ passages assembly, inTurn.reactions = .ok (passages.map Passage.reaction) ∧
        Transcribes passages (passages.map Passage.reaction) ∧
        Assembly.ofReactions (passages.map Passage.reaction) = .ok assembly ∧
        HandlerOrder inTurn passages assembly.layout inTurnScript :=
  ⟨by decide +kernel, handlerOrder_of_compile (by decide +kernel)⟩

end Program

end VisualRules
