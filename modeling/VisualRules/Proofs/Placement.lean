import VisualRules.Program.Basic
import VisualRules.Proofs.Outline
import VisualRules.Proofs.Scan

/-!
# Placement

The layout keeps positions: where each handler starts and where each rule went. Laying out rules
one after the other makes them the positions of an outline, in which nobody keeps any.
-/

namespace VisualRules

namespace Layout

/-- The layout holds these pieces, with a span of that size for each opened handler, and knows
where these rules stand. -/
structure Shows (layout : Layout) (pieces : List Piece) (sizes : Handler → Option Nat)
    (numbers : List Nat) : Prop where
  segments_eq : layout.segments = pieces.map Piece.segment
  span?_eq : ∀ handler, layout.span? handler =
    (sizes handler).map fun used => ⟨pieces.findIdx (Piece.isHeader handler), used⟩
  rules_eq : layout.rules = numbers.map fun number => pieces.findIdx (Piece.isRule number)
  exists_header : ∀ handler, (sizes handler).isSome = true →
    ∃ piece ∈ pieces, piece.isHeader handler = true
  exists_rule : ∀ number ∈ numbers, ∃ piece ∈ pieces, piece.isRule number = true

namespace Shows

variable {layout : Layout} {pieces : List Piece} {sizes : Handler → Option Nat} {numbers : List Nat}

theorem size_eq (h : layout.Shows pieces sizes numbers) : layout.size = pieces.length := by
  rw [size, h.segments_eq, List.length_map]

private theorem empty : Layout.empty.Shows [] (fun _ => none) [] where
  segments_eq := rfl
  span?_eq handler := by simp [Layout.empty, span?]
  rules_eq := rfl
  exists_header handler hsome := by simp at hsome
  exists_rule number hnumber := by simp at hnumber

private theorem findIdx_push {p : Piece → Bool} (h : ∃ piece ∈ pieces, p piece = true)
    (piece : Piece) : (pieces ++ [piece]).findIdx p = pieces.findIdx p := by
  rw [List.findIdx_append, if_pos (List.findIdx_lt_length_of_exists h)]

private theorem push (h : layout.Shows pieces sizes numbers) (piece : Piece) :
    (layout.push piece.segment).Shows (pieces ++ [piece]) sizes numbers where
  segments_eq := by
    rw [Layout.push, h.segments_eq, List.map_append, List.map_singleton]
  span?_eq handler := by
    change layout.span? handler = _
    rw [h.span?_eq]
    cases hsize : sizes handler with
    | none => rfl
    | some used => rw [findIdx_push (h.exists_header handler (by simp [hsize]))]
  rules_eq := by
    change layout.rules = _
    rw [h.rules_eq]
    apply List.map_congr_left
    intro number hnumber
    rw [findIdx_push (h.exists_rule number hnumber)]
  exists_header handler hsome := by
    obtain ⟨header, hmem, hheader⟩ := h.exists_header handler hsome
    exact ⟨header, List.mem_append_left _ hmem, hheader⟩
  exists_rule number hnumber := by
    obtain ⟨rule, hmem, hrule⟩ := h.exists_rule number hnumber
    exact ⟨rule, List.mem_append_left _ hmem, hrule⟩

private theorem openHandler (h : layout.Shows pieces sizes numbers) {handler : Handler}
    (hheader : ∃ piece ∈ pieces, piece.isHeader handler = true) (used : Nat) :
    (layout.openHandler handler ⟨pieces.findIdx (Piece.isHeader handler), used⟩).Shows pieces
      (fun other => if other = handler then some used else sizes other) numbers where
  segments_eq := h.segments_eq
  span?_eq other := by
    rw [span?_openHandler, h.span?_eq]
    by_cases heq : other = handler
    · rw [if_pos heq, if_pos heq, heq]
      rfl
    · rw [if_neg heq, if_neg heq]
  rules_eq := h.rules_eq
  exists_header other hsome := by
    by_cases heq : other = handler
    · rw [heq]
      exact hheader
    · rw [if_neg heq] at hsome
      exact h.exists_header other hsome
  exists_rule := h.exists_rule

private theorem growHandler (h : layout.Shows pieces sizes numbers) (handler : Handler) :
    (layout.growHandler handler).Shows pieces
      (fun other => if other = handler then (sizes other).map (· + 1) else sizes other)
      numbers where
  segments_eq := by
    rw [← h.segments_eq, Layout.growHandler]
    split <;> rfl
  span?_eq other := by
    rw [span?_growHandler, h.span?_eq]
    by_cases heq : other = handler
    · rw [if_pos heq, if_pos heq, Option.map_map, Option.map_map]
      rfl
    · rw [if_neg heq, if_neg heq]
  rules_eq := by
    rw [← h.rules_eq, Layout.growHandler]
    split <;> rfl
  exists_header other hsome := by
    by_cases heq : other = handler
    · rw [if_pos heq, Option.isSome_map] at hsome
      exact h.exists_header other hsome
    · rw [if_neg heq] at hsome
      exact h.exists_header other hsome
  exists_rule := h.exists_rule

private theorem insert_bindRule (h : layout.Shows pieces sizes numbers) {position : Nat}
    {passage : Passage} (hposition : position ≤ pieces.length)
    (hpieces : ∀ piece ∈ pieces, piece.isRule passage.number = false)
    (hnumbers : passage.number ∉ numbers) :
    ∃ next, layout.insert position passage.segment = .ok next ∧
      (next.bindRule position).Shows (pieces.insertIdx position (.ofPassage passage)) sizes
        (numbers ++ [passage.number]) := by
  have hmem : ∀ piece ∈ pieces, piece ∈ pieces.insertIdx position (.ofPassage passage) :=
    fun piece hpiece => (List.mem_insertIdx hposition).mpr (.inr hpiece)
  have hrule : (Piece.ofPassage passage).isRule passage.number = true := by simp [Piece.isRule]
  refine ⟨_, insert_eq_ok _ (by rw [h.size_eq]; exact hposition), ?_⟩
  constructor
  case segments_eq =>
    change layout.segments.insertIdx position passage.segment = _
    rw [h.segments_eq, List.map_insertIdx]
    rfl
  case span?_eq =>
    intro handler
    change (layout.spans.map _).get handler = _
    rw [HandlerTable.get_map]
    change (layout.span? handler).map _ = _
    rw [h.span?_eq, Option.map_map, findIdx_insertIdx _ _ _ _ hposition (by
      simp [Piece.isHeader, Piece.ofPassage])]
    rfl
  case rules_eq =>
    change layout.rules.map (shiftFrom position) ++ [position] = _
    rw [h.rules_eq, List.map_append, List.map_singleton, List.map_map,
      findIdx_insertIdx_self _ _ _ _ hposition hrule hpieces]
    congr 1
    apply List.map_congr_left
    intro number hnumber
    have hne : passage.number ≠ number := fun heq => hnumbers (heq ▸ hnumber)
    rw [findIdx_insertIdx _ _ _ _ hposition (by simp [Piece.isRule, hne])]
    rfl
  case exists_header =>
    intro handler hsome
    obtain ⟨header, hheader, hopens⟩ := h.exists_header handler hsome
    exact ⟨header, hmem header hheader, hopens⟩
  case exists_rule =>
    intro number hnumber
    rcases List.mem_append.mp hnumber with hnumber | hnumber
    · obtain ⟨rule, hrule, hnumber⟩ := h.exists_rule number hnumber
      exact ⟨rule, hmem rule hrule, hnumber⟩
    · rw [List.mem_singleton.mp hnumber]
      exact ⟨_, (List.mem_insertIdx hposition).mpr (.inl rfl), hrule⟩

end Shows

end Layout

/-- How many entries each handler of the script has. -/
def sizesOf (passages : List Passage) (handler : Handler) : Option Nat :=
  if handler ∈ handlersOf (passages.map Passage.reaction) then
    some (entriesOf handler passages).length
  else none

private theorem sizesOf_push_of_mem {passages : List Passage} {passage : Passage}
    (h : passage.handler ∈ handlersOf (passages.map Passage.reaction)) :
    sizesOf (passages ++ [passage]) = fun other =>
      if other = passage.handler then (sizesOf passages other).map (· + 1)
      else sizesOf passages other := by
  funext other
  have hhandlers := handlersOf_map_push_of_mem h
  by_cases heq : other = passage.handler
  · subst heq
    have hne := entriesOf_ne_nil_iff.mpr h
    rw [if_pos rfl, sizesOf, sizesOf, hhandlers, if_pos h, if_pos h, entriesOf_push_self,
      Chapter.length_extend hne]
    rfl
  · rw [if_neg heq, sizesOf, sizesOf, hhandlers, entriesOf_push_of_ne passages (Ne.symm heq)]

private theorem sizesOf_push_of_not_mem {passages : List Passage} {passage : Passage}
    (h : passage.handler ∉ handlersOf (passages.map Passage.reaction)) :
    sizesOf (passages ++ [passage]) = fun other =>
      if other = passage.handler then some (Chapter.opening passage).length
      else sizesOf passages other := by
  funext other
  have hhandlers := handlersOf_map_push_of_not_mem h
  by_cases heq : other = passage.handler
  · subst heq
    rw [if_pos rfl, sizesOf, hhandlers, if_pos (by simp), entriesOf_push_self,
      entriesOf_eq_nil h]
    rfl
  · rw [if_neg heq, sizesOf, sizesOf, hhandlers, entriesOf_push_of_ne passages (Ne.symm heq)]
    simp [heq]

/-- The layout is that of the script with these rules. -/
def Layout.Realizes (layout : Layout) (passages : List Passage) : Prop :=
  layout.Shows (outline passages) (sizesOf passages) (passages.map Passage.number)

namespace Layout.Realizes

variable {layout : Layout} {passages : List Passage} {before after : List Handler}
  {handler : Handler}

theorem span?_of_split (h : layout.Realizes passages)
    (hsplit : handlersOf (passages.map Passage.reaction) = before ++ handler :: after) :
    layout.span? handler =
      some ⟨(blocksOf before passages).length, (entriesOf handler passages).length⟩ := by
  rw [h.span?_eq, sizesOf, if_pos (by simp [hsplit]), Option.map_some,
    findIdx_isHeader hsplit]

theorem opened_iff (h : layout.Realizes passages) (handler : Handler) :
    (layout.span? handler).isSome = true ↔
      handler ∈ handlersOf (passages.map Passage.reaction) := by
  rw [h.span?_eq, Option.isSome_map, sizesOf]
  by_cases hmem : handler ∈ handlersOf (passages.map Passage.reaction)
  · simp [hmem]
  · simp [hmem]

theorem span?_eq_none_iff (h : layout.Realizes passages) (handler : Handler) :
    layout.span? handler = none ↔ handler ∉ handlersOf (passages.map Passage.reaction) := by
  rw [← h.opened_iff, Option.not_isSome_iff_eq_none]

private theorem opensAt_header (h : layout.Realizes passages)
    (hsplit : handlersOf (passages.map Passage.reaction) = before ++ handler :: after) :
    opensAt layout.segments (blocksOf before passages).length = false := by
  rw [opensAt, h.segments_eq, List.getElem?_map, getElem?_header_of_split hsplit]
  rfl

private theorem opensAt_entry (h : layout.Realizes passages)
    (hsplit : handlersOf (passages.map Passage.reaction) = before ++ handler :: after)
    {index : Nat} {entry : Entry} (hentry : (entriesOf handler passages)[index]? = some entry) :
    opensAt layout.segments ((blocksOf before passages).length + 1 + index) =
      entry.isConditional := by
  rw [opensAt, h.segments_eq, List.getElem?_map, getElem?_entry_of_split hsplit hentry,
    ← entry.opensCondition_segment]
  rfl

theorem rules_lt_size (h : layout.Realizes passages) :
    ∀ position ∈ layout.rules, position < layout.size := by
  intro position hposition
  rw [h.rules_eq, List.mem_map] at hposition
  obtain ⟨number, hnumber, rfl⟩ := hposition
  rw [h.size_eq]
  exact List.findIdx_lt_length_of_exists (h.exists_rule number hnumber)

private theorem mem_rules_of_entry (h : layout.Realizes passages)
    (hnodup : (passages.map Passage.number).Nodup)
    (hsplit : handlersOf (passages.map Passage.reaction) = before ++ handler :: after)
    {index : Nat} {passage : Passage}
    (hentry : (entriesOf handler passages)[index]? = some (.rule passage)) :
    (blocksOf before passages).length + 1 + index ∈ layout.rules := by
  have hmem := (rule_mem_entriesOf.mp (List.mem_of_getElem? hentry)).1
  rw [h.rules_eq, List.mem_map]
  exact ⟨passage.number, List.mem_map_of_mem hmem, findIdx_isRule_of_split hnodup hsplit hentry⟩

private theorem mem_conditionals_iff (h : layout.Realizes passages)
    (hnodup : (passages.map Passage.number).Nodup)
    (hsplit : handlersOf (passages.map Passage.reaction) = before ++ handler :: after)
    {position : Nat} :
    position ∈ conditionals layout.segments (blocksOf before passages).length
        ((blocksOf before passages).length + (entriesOf handler passages).length + 1)
        layout.rules ↔
      ∃ index entry, position = (blocksOf before passages).length + 1 + index ∧
        (entriesOf handler passages)[index]? = some entry ∧ entry.isConditional = true := by
  rw [mem_conditionals]
  constructor
  · intro hh
    obtain ⟨_, hstart, hstop, hopens⟩ := hh
    obtain ⟨offset, rfl⟩ := Nat.exists_eq_add_of_le hstart
    cases offset with
    | zero =>
      rw [Nat.add_zero, h.opensAt_header hsplit] at hopens
      cases hopens
    | succ index =>
      have hentry := List.getElem?_eq_getElem (l := entriesOf handler passages) (i := index)
        (by omega)
      rw [Nat.add_comm index, ← Nat.add_assoc, h.opensAt_entry hsplit hentry] at hopens
      exact ⟨index, _, by omega, hentry, hopens⟩
  · intro hh
    obtain ⟨index, entry, rfl, hentry, hconditional⟩ := hh
    obtain ⟨hlt, _⟩ := List.getElem?_eq_some_iff.mp hentry
    rw [h.opensAt_entry hsplit hentry]
    refine ⟨?_, by omega, by omega, hconditional⟩
    cases entry with
    | stateSync => simp at hconditional
    | rule passage => exact h.mem_rules_of_entry hnodup hsplit hentry

/-- The scan finds the first conditional entry of the block, although it looks at the rules of all
handlers. -/
theorem firstConditional_eq (h : layout.Realizes passages)
    (hnodup : (passages.map Passage.number).Nodup)
    (hsplit : handlersOf (passages.map Passage.reaction) = before ++ handler :: after) :
    layout.firstConditional (blocksOf before passages).length
        ((blocksOf before passages).length + (entriesOf handler passages).length + 1) =
      .ok (((entriesOf handler passages).findIdx? Entry.isConditional).map
        ((blocksOf before passages).length + 1 + ·)) := by
  rw [firstConditional_eq_min? layout _ _ h.rules_lt_size]
  congr 1
  cases hfound : (entriesOf handler passages).findIdx? Entry.isConditional with
  | none =>
    rw [List.findIdx?_eq_none_iff] at hfound
    rw [Option.map_none, List.min?_eq_none_iff, List.eq_nil_iff_forall_not_mem]
    intro position hposition
    obtain ⟨_, entry, _, hentry, hconditional⟩ :=
      (h.mem_conditionals_iff hnodup hsplit).mp hposition
    rw [hfound entry (List.mem_of_getElem? hentry)] at hconditional
    cases hconditional
  | some index =>
    obtain ⟨hlt, hconditional, hearlier⟩ := List.findIdx?_eq_some_iff_getElem.mp hfound
    rw [Option.map_some, List.min?_eq_some_iff]
    refine ⟨(h.mem_conditionals_iff hnodup hsplit).mpr
      ⟨index, _, rfl, List.getElem?_eq_getElem hlt, hconditional⟩, ?_⟩
    intro position hposition
    obtain ⟨other, entry, rfl, hentry, hconditional⟩ :=
      (h.mem_conditionals_iff hnodup hsplit).mp hposition
    obtain ⟨hlt, hget⟩ := List.getElem?_eq_some_iff.mp hentry
    by_contra hbelow
    have hnot := hearlier other (by omega)
    rw [hget] at hnot
    exact hnot hconditional

private theorem extensionPoint_eq (h : layout.Realizes passages)
    (hnodup : (passages.map Passage.number).Nodup) {passage : Passage}
    (hsplit : handlersOf (passages.map Passage.reaction) = before ++ passage.handler :: after) :
    Assembly.extensionPoint layout
        ⟨(blocksOf before passages).length, (entriesOf passage.handler passages).length⟩
        passage.reaction =
      .ok ((blocksOf before passages).length + 1 +
        Chapter.slot (entriesOf passage.handler passages) passage) := by
  have hne : entriesOf passage.handler passages ≠ [] :=
    entriesOf_ne_nil_iff.mpr (by simp [hsplit])
  have hlength := List.length_pos_iff.mpr hne
  unfold Assembly.extensionPoint Chapter.slot
  by_cases hadvanced : passage.reaction.isAdvanced = true
  · rw [if_pos hadvanced, if_pos hadvanced]
    congr 1
    dsimp only
    omega
  · rw [if_neg hadvanced, if_neg hadvanced]
    by_cases hset : passage.reaction.event.isSet = true
    · rw [if_pos hset, if_pos hset]
      congr 1
      dsimp only
      omega
    · rw [if_neg hset, if_neg hset, h.firstConditional_eq hnodup hsplit,
        List.findIdx_eq_getD_findIdx?]
      change Except.ok _ = Except.ok _
      congr 1
      cases (entriesOf passage.handler passages).findIdx? Entry.isConditional with
      | none => simp only [Option.map_none, Option.getD_none]; omega
      | some index => rfl

end Layout.Realizes

namespace Assembly

variable {assembly : Assembly} {passages : List Passage} {passage : Passage}

private theorem exists_place_of_not_mem (h : assembly.layout.Realizes passages)
    (hmem : passage.handler ∉ handlersOf (passages.map Passage.reaction)) :
    ∃ opened, assembly.place passage.reaction = .ok (opened, assembly.layout.size + 1) ∧
      opened.layout.Shows
        (outline passages ++ .header passage.handler ::
          if passage.reaction.isAdvanced then [.stateSync passage.handler] else [])
        (sizesOf (passages ++ [passage])) (passages.map Passage.number) := by
  have hspan := (h.span?_eq_none_iff passage.handler).mpr hmem
  have hheader := Layout.Shows.push h (.header passage.handler)
  have hnone : ∀ piece ∈ outline passages, piece.isHeader passage.handler = false := by
    intro piece hpiece
    have hne : piece.handler ≠ passage.handler := fun heq =>
      hmem (heq ▸ handler_of_mem_blocksOf hpiece)
    simp [Piece.isHeader, hne]
  have hfind (rest : List Piece) : (outline passages ++ .header passage.handler :: rest).findIdx
      (Piece.isHeader passage.handler) = assembly.layout.size := by
    rw [h.size_eq, List.findIdx_append, List.findIdx_eq_length_of_false hnone, if_neg (by omega)]
    simp [Piece.isHeader, Piece.header, List.findIdx_cons]
  have hfound (rest : List Piece) : ∃ piece ∈ outline passages ++ .header passage.handler :: rest,
      piece.isHeader passage.handler = true :=
    ⟨.header passage.handler, by simp, by simp [Piece.isHeader, Piece.header]⟩
  refine ⟨assembly.openHandler passage.reaction, by rw [place, hspan], ?_⟩
  rw [sizesOf_push_of_not_mem hmem]
  unfold openHandler Chapter.opening
  by_cases hadvanced : passage.reaction.isAdvanced = true
  · have hsync := Layout.Shows.push hheader (.stateSync passage.handler)
    rw [List.append_assoc, List.singleton_append] at hsync
    have hopen := hsync.openHandler (hfound _) 2
    rw [hfind] at hopen
    simp only [hadvanced, if_true]
    exact hopen
  · have hopen := hheader.openHandler (hfound _) 1
    rw [hfind] at hopen
    simp only [hadvanced, if_false, Bool.false_eq_true]
    exact hopen

private theorem exists_place_of_split (h : assembly.layout.Realizes passages)
    (hnodup : (passages.map Passage.number).Nodup) {before after : List Handler}
    (hsplit : handlersOf (passages.map Passage.reaction) = before ++ passage.handler :: after) :
    ∃ grown, assembly.place passage.reaction = .ok (grown,
        (blocksOf before passages).length + 1 +
          Chapter.slot (entriesOf passage.handler passages) passage) ∧
      grown.layout.Shows (outline passages) (sizesOf (passages ++ [passage]))
        (passages.map Passage.number) := by
  have hspan := h.span?_of_split hsplit
  refine ⟨{ assembly with layout := assembly.layout.growHandler passage.handler }, ?_, ?_⟩
  · rw [place, hspan]
    simp only [bind_eq_ok, pure_eq_ok]
    exact ⟨_, h.extensionPoint_eq hnodup hsplit, rfl⟩
  · rw [sizesOf_push_of_mem (by simp [hsplit])]
    exact Layout.Shows.growHandler h passage.handler

private theorem exists_add_of_place {placed : Assembly} {position : Nat} {pieces : List Piece}
    (hplace : assembly.place passage.reaction = .ok (placed, position))
    (hshows : placed.layout.Shows pieces (sizesOf (passages ++ [passage]))
      (passages.map Passage.number))
    (hposition : position ≤ pieces.length)
    (hpieces : ∀ piece ∈ pieces, piece.isRule passage.number = false)
    (hnumber : passage.number ∉ passages.map Passage.number)
    (houtline : outline (passages ++ [passage]) = pieces.insertIdx position (.ofPassage passage)) :
    ∃ next, assembly.add passage.reaction = .ok next ∧
      next.layout.Realizes (passages ++ [passage]) := by
  obtain ⟨layout, hinsert, hlayout⟩ := hshows.insert_bindRule hposition hpieces hnumber
  refine ⟨⟨layout.bindRule position, placed.features.insertAll passage.reaction.features⟩, ?_, ?_⟩
  · simp only [add, bind_eq_ok, pure_eq_ok]
    exact ⟨_, hplace, _, passage.written, _, hinsert, rfl⟩
  · rw [Layout.Realizes, houtline, List.map_append, List.map_singleton]
    exact hlayout

/-- Laying out one more rule is putting it into the outline. -/
theorem exists_add (h : assembly.layout.Realizes passages)
    (hnodup : ((passages ++ [passage]).map Passage.number).Nodup) :
    ∃ next, assembly.add passage.reaction = .ok next ∧
      next.layout.Realizes (passages ++ [passage]) := by
  obtain ⟨hnumber, hnumbers⟩ := nodup_numbers_push.mp hnodup
  have hpieces := isRule_eq_false_of_not_mem hnumber
  by_cases hmem : passage.handler ∈ handlersOf (passages.map Passage.reaction)
  · obtain ⟨before, after, hsplit⟩ := List.append_of_mem hmem
    obtain ⟨grown, hplace, hshows⟩ := exists_place_of_split h hnumbers hsplit
    exact exists_add_of_place hplace hshows (slot_le_length_outline hsplit) hpieces hnumber
      (outline_push_of_split hsplit)
  · obtain ⟨opened, hplace, hshows⟩ := exists_place_of_not_mem h hmem
    rw [h.size_eq] at hplace
    refine exists_add_of_place hplace hshows ?_ ?_ hnumber ?_
    · rw [List.length_append, List.length_cons]
      omega
    · intro piece hpiece
      rcases List.mem_append.mp hpiece with hpiece | hpiece
      · exact hpieces piece hpiece
      · split at hpiece
        · simp only [List.mem_cons, List.not_mem_nil, or_false] at hpiece
          rcases hpiece with rfl | rfl
          · rfl
          · rfl
        · rw [List.mem_singleton.mp hpiece]
          rfl
    · rw [outline_push_of_not_mem hmem, insertIdx_append_right, List.insertIdx_succ_cons,
        List.insertIdx_zero]
      unfold Chapter.opening
      split <;> rfl

theorem ofReactions_push (reactions : List Reaction) (reaction : Reaction) :
    ofReactions (reactions ++ [reaction]) = ofReactions reactions >>= (·.add reaction) := by
  simp [ofReactions, List.foldlM_append]

/-- Laying out rules that can be written meets no fault and gives the layout of their outline. -/
theorem exists_ofReactions (passages : List Passage)
    (hnodup : (passages.map Passage.number).Nodup) :
    ∃ assembly, ofReactions (passages.map Passage.reaction) = .ok assembly ∧
      assembly.layout.Realizes passages := by
  -- The invariant of the run is that the layout is that of the outline so far.
  induction passages using List.reverseRecOn with
  | nil => exact ⟨empty, rfl, Layout.Shows.empty⟩
  | append_singleton passages passage ih =>
    obtain ⟨assembly, hassembly, hrealizes⟩ := ih (nodup_numbers_push.mp hnodup).2
    obtain ⟨next, hnext, hrealizes'⟩ := exists_add hrealizes hnodup
    refine ⟨next, ?_, hrealizes'⟩
    rw [List.map_append, List.map_singleton, ofReactions_push, hassembly]
    exact hnext

end Assembly

namespace Program

theorem compile_eq_ok {program : Program} {script : Script} :
    program.compile = .ok script ↔
      ∃ reactions assembly, program.reactions = .ok reactions ∧
        Assembly.ofReactions reactions = .ok assembly ∧
        script = assembly.script program.advancedMode := by
  simp only [compile, bind_eq_ok, pure_eq_ok, mapError_eq_ok]
  constructor
  · intro hh
    obtain ⟨reactions, hreactions, assembly, hassembly, rfl⟩ := hh
    exact ⟨reactions, assembly, hreactions, hassembly, rfl⟩
  · intro hh
    obtain ⟨reactions, assembly, hreactions, hassembly, rfl⟩ := hh
    exact ⟨reactions, hreactions, assembly, hassembly, rfl⟩

theorem inTables_of_reactions {program : Program} {reactions : List Reaction}
    (h : program.reactions = .ok reactions) : ∀ reaction ∈ reactions, reaction.InTables := by
  intro reaction hreaction
  obtain ⟨rule, _, hrule⟩ := exists_of_mem_forall₂ (reactions_eq_ok.mp h) hreaction
  exact Rule.inTables_of_toReaction hrule

theorem exists_compile_of_transcribes {program : Program} {passages : List Passage}
    {reactions : List Reaction} (h : program.reactions = .ok reactions)
    (hpassages : Transcribes passages reactions) :
    ∃ assembly, Assembly.ofReactions reactions = .ok assembly ∧
      assembly.layout.Realizes passages ∧
      program.compile = .ok (assembly.script program.advancedMode) := by
  obtain ⟨assembly, hassembly, hrealizes⟩ := Assembly.exists_ofReactions passages hpassages.nodup
  rw [hpassages.reactions_eq] at hassembly
  exact ⟨assembly, hassembly, hrealizes,
    compile_eq_ok.mpr ⟨reactions, assembly, h, hassembly, rfl⟩⟩

theorem exists_compile {program : Program} {reactions : List Reaction}
    (h : program.reactions = .ok reactions) :
    ∃ passages assembly, Transcribes passages reactions ∧
      Assembly.ofReactions reactions = .ok assembly ∧ assembly.layout.Realizes passages ∧
      program.compile = .ok (assembly.script program.advancedMode) := by
  obtain ⟨passages, hpassages⟩ := exists_transcribes (inTables_of_reactions h)
  obtain ⟨assembly, hassembly⟩ := exists_compile_of_transcribes h hpassages
  exact ⟨passages, assembly, hpassages, hassembly⟩

/-- A script is the layout of an outline, with the preamble in front. -/
theorem exists_of_compile {program : Program} {script : Script}
    (h : program.compile = .ok script) :
    ∃ passages assembly, program.reactions = .ok (passages.map Passage.reaction) ∧
      Transcribes passages (passages.map Passage.reaction) ∧
      Assembly.ofReactions (passages.map Passage.reaction) = .ok assembly ∧
      assembly.layout.Realizes passages ∧ script = assembly.script program.advancedMode := by
  obtain ⟨reactions, _, hreactions, _, _⟩ := compile_eq_ok.mp h
  obtain ⟨passages, assembly, hpassages, hassembly, hrealizes, hcompile⟩ :=
    exists_compile hreactions
  rw [h, Except.ok.injEq] at hcompile
  have heq := hpassages.reactions_eq
  subst heq
  exact ⟨passages, assembly, hreactions, hpassages, hassembly, hrealizes, hcompile⟩

end Program

end VisualRules
