import VisualRules.Proofs.Placement

namespace VisualRules

namespace Layout

/-- The segments of a handler, its header first. -/
def handlerSegments (layout : Layout) (handler : Handler) : List Segment :=
  match layout.span? handler with
  | some span => (layout.segments.drop span.header).take (span.used + 1)
  | none => []

namespace Realizes

variable {layout : Layout} {passages : List Passage} {handler : Handler}

theorem getElem?_segments (h : layout.Realizes passages) (position : Nat) :
    layout.segments[position]? = (outline passages)[position]?.map Piece.segment := by
  rw [h.segments_eq, List.getElem?_map]

theorem length_rules (h : layout.Realizes passages) : layout.rules.length = passages.length := by
  rw [h.rules_eq, List.length_map, List.length_map]

theorem getElem?_rules (h : layout.Realizes passages) {index : Nat} {passage : Passage}
    (hget : passages[index]? = some passage) :
    layout.rules[index]? = some ((outline passages).findIdx (Piece.isRule passage.number)) := by
  rw [h.rules_eq, List.getElem?_map, List.getElem?_map, hget, Option.map_some, Option.map_some]

theorem getElem?_rules_of_entry (h : layout.Realizes passages)
    (hnodup : (passages.map Passage.number).Nodup) {before after : List Handler} {index slot : Nat}
    {passage : Passage} (hget : passages[index]? = some passage)
    (hsplit : handlersOf (passages.map Passage.reaction) = before ++ handler :: after)
    (hentry : (entriesOf handler passages)[slot]? = some (.rule passage)) :
    layout.rules[index]? = some ((blocksOf before passages).length + 1 + slot) := by
  rw [h.getElem?_rules hget, findIdx_isRule_of_split hnodup hsplit hentry]

/-- The positions that the layout keeps for rules are those at which the script has one. -/
theorem mem_rules_iff (h : layout.Realizes passages)
    (hnodup : (passages.map Passage.number).Nodup) {position : Nat} :
    position ∈ layout.rules ↔
      ∃ passage, (outline passages)[position]? = some (.ofPassage passage) := by
  rw [h.rules_eq, List.map_map, List.mem_map]
  constructor
  · intro hh
    obtain ⟨passage, hmem, rfl⟩ := hh
    exact ⟨passage, getElem?_findIdx_isRule hnodup hmem⟩
  · intro hh
    obtain ⟨passage, hget⟩ := hh
    have hmem := (eq_ofPassage_of_mem_outline (List.mem_of_getElem? hget) rfl).2
    exact ⟨passage, hmem, findIdx_isRule hnodup hget (by simp [Piece.isRule])⟩

theorem nodup_rules (h : layout.Realizes passages)
    (hnodup : (passages.map Passage.number).Nodup) : layout.rules.Nodup := by
  rw [h.rules_eq, List.map_map]
  refine List.Nodup.map_on ?_ (List.Nodup.of_map _ hnodup)
  intro one hone other hother heq
  have hget := getElem?_findIdx_isRule hnodup hone
  have hget' := getElem?_findIdx_isRule hnodup hother
  change (outline passages).findIdx (Piece.isRule one.number) =
    (outline passages).findIdx (Piece.isRule other.number) at heq
  rw [heq, hget', Option.some.injEq] at hget
  have hpassage := congrArg Piece.passage? hget
  simpa using hpassage.symm

theorem segment_of_not_mem_rules (h : layout.Realizes passages)
    (hnodup : (passages.map Passage.number).Nodup) {position : Nat} {segment : Segment}
    (hget : layout.segments[position]? = some segment) (hrule : position ∉ layout.rules) :
    (∃ handler ∈ handlersOf (passages.map Passage.reaction), segment = .header handler) ∨
      segment = .stateSync := by
  rw [h.getElem?_segments, Option.map_eq_some_iff] at hget
  obtain ⟨piece, hpiece, rfl⟩ := hget
  have hmem := (outline_perm passages).mem_iff.mp (List.mem_of_getElem? hpiece)
  simp only [List.mem_append, List.mem_map] at hmem
  rcases hmem with ⟨passage, _, rfl⟩ | ⟨handler, hhandler, rfl⟩ | ⟨handler, _, rfl⟩
  · exact absurd ((h.mem_rules_iff hnodup).mpr ⟨passage, hpiece⟩) hrule
  · exact .inl ⟨handler, hhandler, rfl⟩
  · exact .inr rfl

/-- The segments are the blocks of the handlers, in the order of their first rules. -/
theorem handlerSegments_eq (h : layout.Realizes passages)
    (hmem : handler ∈ handlersOf (passages.map Passage.reaction)) :
    layout.handlerSegments handler =
      .header handler :: (entriesOf handler passages).map Entry.segment := by
  obtain ⟨before, after, hsplit⟩ := List.append_of_mem hmem
  rw [handlerSegments, h.span?_of_split hsplit]
  change (layout.segments.drop _).take _ = _
  rw [h.segments_eq, ← List.map_drop, ← List.map_take, outline_split hsplit, List.drop_left,
    ← length_block handler, List.take_left, map_segment_block]

theorem segments_eq_flatMap (h : layout.Realizes passages) :
    layout.segments =
      (handlersOf (passages.map Passage.reaction)).flatMap layout.handlerSegments := by
  rw [h.segments_eq, outline, blocksOf, List.map_flatMap]
  apply List.flatMap_congr
  intro handler hhandler
  rw [h.handlerSegments_eq hhandler, map_segment_block]

end Realizes

end Layout

end VisualRules
