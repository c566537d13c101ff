import VisualRules.Proofs.Realization

/-!
# Drafts

A second way to lay out rules, in which nobody keeps a position: the handlers in their order, each
with the list of its own segments. A script is its draft written out, handler after handler.
-/

namespace VisualRules

/-- A segment, and the number of the rule if it is the code of one. -/
structure Leaf where
  segment : Segment
  rule? : Option Nat

namespace Leaf

def header (handler : Handler) : Leaf := ⟨.header handler, none⟩

def stateSync : Leaf := ⟨.stateSync, none⟩

def ofBranch (number : Nat) (branch : Branch) : Leaf := ⟨Assembly.segmentOf branch, some number⟩

end Leaf

/-- The handlers in the order in which they were opened, each with its segments. -/
abbrev Draft := List (Handler × List Leaf)

namespace Draft

/-- The segments of a handler that a rule opens. -/
def opening (reaction : Reaction) (leaf : Leaf) : List Leaf :=
  .header reaction.handler :: leaf :: if reaction.isAdvanced then [.stateSync] else []

/-- Puts a rule among the segments of its handler: before the last one if it is advanced, else to
the end, or before the first conditional branch if its event asks for nothing. -/
def join (reaction : Reaction) (leaf : Leaf) (leaves : List Leaf) : List Leaf :=
  if reaction.isAdvanced then leaves.dropLast ++ leaf :: leaves.getLast?.toList
  else if reaction.event.isSet then leaves ++ [leaf]
  else
    leaves.takeWhile (fun other => !other.segment.opensCondition) ++
      leaf :: leaves.dropWhile fun other => !other.segment.opensCondition

/-- Adds a rule to its handler. The first rule of a handler opens it behind the others. -/
def add (draft : Draft) (reaction : Reaction) (leaf : Leaf) : Draft :=
  if draft.any fun part => part.1 = reaction.handler then
    draft.map fun part =>
      if part.1 = reaction.handler then (part.1, join reaction leaf part.2) else part
  else draft ++ [(reaction.handler, opening reaction leaf)]

def ofReactions (reactions : List Reaction) : Except Fault Draft :=
  reactions.zipIdx.foldlM (fun draft (reaction, number) => do
    let branch ← reaction.branch
    return draft.add reaction (.ofBranch number branch)) []

def leaves (draft : Draft) : List Leaf := draft.flatMap Prod.snd

def texts (draft : Draft) : List String := draft.leaves.map fun leaf => leaf.segment.text

/-- Where the code of a rule stands among the segments. -/
def position? (draft : Draft) (number : Nat) : Option Nat :=
  draft.leaves.findIdx? fun leaf => leaf.rule? = some number

end Draft

def Piece.leaf (piece : Piece) : Leaf := ⟨piece.segment, piece.passage?.map Passage.number⟩

namespace Passage

def leaf (passage : Passage) : Leaf := .ofBranch passage.number passage.branch

private theorem leaf_eq (passage : Passage) (handler : Handler) :
    Piece.leaf ⟨handler, some (.rule passage)⟩ = passage.leaf := rfl

end Passage

namespace Draft

/-- The draft that an outline is when each block is kept apart. -/
def ofPassages (passages : List Passage) : Draft :=
  (handlersOf (passages.map Passage.reaction)).map fun handler =>
    (handler, (block handler (entriesOf handler passages)).map Piece.leaf)

private theorem leaves_ofPassages (passages : List Passage) :
    (ofPassages passages).leaves = (outline passages).map Piece.leaf := by
  simp only [leaves, ofPassages, outline, blocksOf, List.flatMap_map, List.map_flatMap]

private theorem any_ofPassages_iff (passages : List Passage) (handler : Handler) :
    ((ofPassages passages).any fun part => part.1 = handler) = true ↔
      handler ∈ handlersOf (passages.map Passage.reaction) := by
  simp [ofPassages]

private theorem opening_eq (passage : Passage) :
    opening passage.reaction passage.leaf =
      (block passage.handler (Chapter.opening passage)).map Piece.leaf := by
  rw [block_opening, opening]
  cases passage.reaction.isAdvanced with
  | true => rfl
  | false => rfl

private theorem findIdx_block (handler : Handler) (entries : List Entry) :
    ((block handler entries).map Piece.leaf).findIdx (fun leaf => leaf.segment.opensCondition) =
      entries.findIdx Entry.isConditional + 1 := by
  have hentry : (fun entry : Entry => entry.segment.opensCondition) = Entry.isConditional :=
    funext Entry.opensCondition_segment
  rw [block, List.map_cons, List.findIdx_cons, List.map_map, List.findIdx_map, ← hentry]
  rfl

private theorem join_eq (passage : Passage) {entries : List Entry} (h : entries ≠ []) :
    join passage.reaction passage.leaf ((block passage.handler entries).map Piece.leaf) =
      (block passage.handler (Chapter.extend entries passage)).map Piece.leaf := by
  have hblock : (block passage.handler (Chapter.extend entries passage)).map Piece.leaf =
      ((block passage.handler entries).map Piece.leaf).insertIdx
        (Chapter.slot entries passage + 1) passage.leaf := by
    rw [Chapter.extend_of_ne_nil h, block, block, List.map_insertIdx, ← List.insertIdx_succ_cons,
      List.map_insertIdx, Passage.leaf_eq]
  have hne : (block passage.handler entries).map Piece.leaf ≠ [] := by simp [block]
  have hlength : ((block passage.handler entries).map Piece.leaf).length = entries.length + 1 := by
    rw [List.length_map, length_block]
  have hpos := List.length_pos_iff.mpr h
  rw [hblock, join, Chapter.slot]
  by_cases hadvanced : passage.reaction.isAdvanced = true
  · have hslot : entries.length - 1 + 1 =
        ((block passage.handler entries).map Piece.leaf).length - 1 := by omega
    rw [if_pos hadvanced, if_pos hadvanced, hslot, insertIdx_length_sub_one _ hne]
  · rw [if_neg hadvanced, if_neg hadvanced]
    by_cases hset : passage.reaction.event.isSet = true
    · rw [if_pos hset, if_pos hset, ← hlength, List.insertIdx_length_self]
    · rw [if_neg hset, if_neg hset, ← findIdx_block passage.handler, insertIdx_findIdx]

private theorem add_ofPassages (passages : List Passage) (passage : Passage) :
    (ofPassages passages).add passage.reaction passage.leaf =
      ofPassages (passages ++ [passage]) := by
  have hiff := any_ofPassages_iff passages passage.handler
  have hother {handler : Handler} (hne : handler ≠ passage.handler) :
      entriesOf handler (passages ++ [passage]) = entriesOf handler passages :=
    entriesOf_push_of_ne passages (Ne.symm hne)
  by_cases hmem : passage.handler ∈ handlersOf (passages.map Passage.reaction)
  · rw [add, if_pos (hiff.mpr hmem), ofPassages, ofPassages, handlersOf_map_push_of_mem hmem,
      List.map_map]
    apply List.map_congr_left
    intro handler _
    simp only [Function.comp_apply]
    by_cases heq : handler = passage.handler
    · rw [if_pos heq, heq, join_eq passage (entriesOf_ne_nil_iff.mpr hmem), entriesOf_push_self]
    · rw [if_neg heq, hother heq]
  · rw [add, if_neg (mt hiff.mp hmem), ofPassages, ofPassages,
      handlersOf_map_push_of_not_mem hmem, List.map_append, List.map_singleton,
      entriesOf_push_self, entriesOf_eq_nil hmem, opening_eq]
    congr 1
    apply List.map_congr_left
    intro handler hhandler
    rw [hother fun heq => hmem (heq ▸ hhandler)]

private theorem ofReactions_eq {passages : List Passage} {reactions : List Reaction}
    (h : Transcribes passages reactions) : ofReactions reactions = .ok (ofPassages passages) := by
  -- The draft of the rules so far is that of their outline, and the next rule gets the next number.
  induction passages using List.reverseRecOn generalizing reactions with
  | nil =>
    rw [← h.reactions_eq]
    rfl
  | append_singleton passages passage ih =>
    obtain ⟨hfront, hnumber⟩ := h.of_push
    have hdraft := ih hfront
    rw [ofReactions] at hdraft
    rw [← h.reactions_eq, ofReactions, List.map_append, List.map_singleton, List.zipIdx_append,
      List.foldlM_append, hdraft, ← add_ofPassages]
    simp only [List.length_map, Nat.zero_add, List.zipIdx_singleton, List.foldlM_cons,
      List.foldlM_nil, ← hnumber, bind_eq_ok, pure_eq_ok]
    exact ⟨_, rfl, _, ⟨_, passage.written, rfl⟩, rfl⟩

private theorem position?_ofPassages (passages : List Passage) (number : Nat) :
    (ofPassages passages).position? number =
      (outline passages).findIdx? (Piece.isRule number) := by
  have hrule : ((fun leaf : Leaf => decide (leaf.rule? = some number)) ∘ Piece.leaf) =
      Piece.isRule number := by
    funext piece
    rw [Function.comp_apply, Piece.leaf, Piece.isRule]
    cases piece.passage? with
    | none => rfl
    | some passage => simp
  rw [position?, leaves_ofPassages, List.findIdx?_map, hrule]

end Draft

namespace Layout.Realizes

variable {layout : Layout} {passages : List Passage}

private theorem texts_eq (h : layout.Realizes passages) :
    layout.texts = (Draft.ofPassages passages).texts := by
  rw [texts, h.segments_eq, Draft.texts, Draft.leaves_ofPassages, List.map_map, List.map_map]
  rfl

private theorem getElem?_rules_eq (h : layout.Realizes passages) {reactions : List Reaction}
    (hpassages : Transcribes passages reactions) (number : Nat) :
    layout.rules[number]? = (Draft.ofPassages passages).position? number := by
  rw [Draft.position?_ofPassages]
  cases hpassage : passages[number]? with
  | some passage =>
    have hrule : (Piece.ofPassage passage).isRule number = true := by
      simp [Piece.isRule, hpassages.number_of_getElem? hpassage]
    have hmem := ofPassage_mem_outline (List.mem_of_getElem? hpassage)
    rw [h.getElem?_rules hpassage, hpassages.number_of_getElem? hpassage,
      List.findIdx?_eq_some_of_exists ⟨_, hmem, hrule⟩]
  | none =>
    have hlength := List.getElem?_eq_none_iff.mp hpassage
    have hnumber : number ∉ passages.map Passage.number := by
      rw [hpassages.numbers_eq, ← hpassages.length_eq, List.mem_range]
      omega
    rw [List.getElem?_eq_none (by rw [h.length_rules]; exact hlength),
      List.findIdx?_eq_none_iff.mpr (isRule_eq_false_of_not_mem hnumber)]

end Layout.Realizes

namespace Program

/-- A program whose rules can be read has a script, and that is its draft written out behind the
preamble. -/
theorem writesOut_of_reactions {program : Program} {reactions : List Reaction}
    (h : program.reactions = .ok reactions) :
    ∃ draft script, Draft.ofReactions reactions = .ok draft ∧ program.compile = .ok script ∧
      script.segments = draft.texts.modifyHead
        (Line.textOf (preamble program.advancedMode script.features) ++ ·) ∧
      ∀ number, script.rulePositions[number]? = draft.position? number := by
  obtain ⟨passages, assembly, hpassages, _, hlayout, hcompile⟩ := exists_compile h
  refine ⟨_, _, Draft.ofReactions_eq hpassages, hcompile, ?_, ?_⟩
  · rw [← hlayout.texts_eq]
    rfl
  · exact hlayout.getElem?_rules_eq hpassages

/-- An advanced and a basic rule each join a handler of the other sort, in turn. -/
def crosswise : Program where
  rules := [
    ((Rule.ofEvent (.ofKind .tap [])).withAction (.ofKind .setState [1, 0, 0, 0])).withAdvanced
      true,
    (Rule.ofEvent (.ofKind .buttons [1, 0, 0, 0, 0])).withAction (.ofKind .topColor [32, 0, 0]),
    (Rule.ofEvent (.ofKind .tap [])).withAction (.ofKind .topColor [0, 0, 0]),
    ((Rule.ofEvent (.ofKind .buttons [0, 1, 0, 0, 0])).withAction
      (.ofKind .setState [2, 0, 0, 0])).withAdvanced true,
    (Rule.ofEvent (.ofKind .buttons [0, 0, 0, 0, 0])).withAction (.ofKind .topColor [0, 0, 0])]
  advancedMode := true

def crosswiseReactions : List Reaction := [
  ⟨.tap, none, [.setState #v[.on, .any, .any, .any]], true⟩,
  ⟨.buttons #v[true, false, false, false, false], none, [.topColor ⟨32, 0, 0⟩], false⟩,
  ⟨.tap, none, [.topColor ⟨0, 0, 0⟩], false⟩,
  ⟨.buttons #v[false, true, false, false, false], none, [.setState #v[.off, .any, .any, .any]],
    true⟩,
  ⟨.buttons #v[false, false, false, false, false], none, [.topColor ⟨0, 0, 0⟩], false⟩]

theorem writesOut_of_crosswise :
    crosswise.reactions = .ok crosswiseReactions ∧
      ∃ draft script, Draft.ofReactions crosswiseReactions = .ok draft ∧
        crosswise.compile = .ok script ∧
        script.segments = draft.texts.modifyHead
          (Line.textOf (preamble true script.features) ++ ·) ∧
        ∀ number, script.rulePositions[number]? = draft.position? number :=
  ⟨by decide +kernel, writesOut_of_reactions (by decide +kernel)⟩

end Program

end VisualRules
