import Mathlib.Data.List.Perm.Basic
import VisualRules.Proofs.Positions
import VisualRules.Proofs.Transcript

/-!
# Outlines

A script as nested lists, in which nobody keeps a position: one block for each handler that some
rule belongs to, in the order of the first such rules, and in the block a header and the entries
that follow it. The entries of a handler come from its own rules alone.
-/

namespace VisualRules

/-- What follows the header of a handler. -/
inductive Entry
  | rule (passage : Passage)
  | stateSync

namespace Entry

def segment : Entry → Segment
  | rule passage => passage.segment
  | stateSync => .stateSync

def isConditional : Entry → Bool
  | rule passage => passage.branch.conditional
  | stateSync => false

@[simp] theorem isConditional_rule (passage : Passage) :
    (rule passage).isConditional = passage.branch.conditional := rfl

@[simp] theorem isConditional_stateSync : stateSync.isConditional = false := rfl

def passage? : Entry → Option Passage
  | rule passage => some passage
  | stateSync => none

theorem opensCondition_segment (entry : Entry) :
    entry.segment.opensCondition = entry.isConditional := by
  cases entry with
  | rule passage =>
    simp [segment, Passage.segment, Assembly.segmentOf, Segment.opensCondition]
  | stateSync => rfl

end Entry

namespace Chapter

def opening (passage : Passage) : List Entry :=
  .rule passage :: if passage.reaction.isAdvanced then [.stateSync] else []

/-- Where a further rule goes among the entries: before the last one if it is advanced, else to the
end, or before the first conditional rule if its event asks for nothing. -/
def slot (entries : List Entry) (passage : Passage) : Nat :=
  if passage.reaction.isAdvanced then entries.length - 1
  else if passage.reaction.event.isSet then entries.length
  else entries.findIdx Entry.isConditional

def extend (entries : List Entry) (passage : Passage) : List Entry :=
  match entries with
  | [] => opening passage
  | _ :: _ => entries.insertIdx (slot entries passage) (.rule passage)

/-- The entries of a handler with these rules. -/
def ofPassages (passages : List Passage) : List Entry := passages.foldl extend []

@[simp] theorem ofPassages_nil : ofPassages [] = [] := rfl

theorem ofPassages_push (passages : List Passage) (passage : Passage) :
    ofPassages (passages ++ [passage]) = extend (ofPassages passages) passage := by
  simp [ofPassages]

theorem slot_le_length (entries : List Entry) (passage : Passage) :
    slot entries passage ≤ entries.length := by
  unfold slot
  split
  · omega
  · split
    · exact Nat.le_refl _
    · exact List.findIdx_le_length

theorem extend_of_ne_nil {entries : List Entry} (h : entries ≠ []) (passage : Passage) :
    extend entries passage = entries.insertIdx (slot entries passage) (.rule passage) := by
  cases entries with
  | nil => exact absurd rfl h
  | cons entry entries => rfl

theorem length_extend {entries : List Entry} (h : entries ≠ []) (passage : Passage) :
    (extend entries passage).length = entries.length + 1 := by
  rw [extend_of_ne_nil h, List.length_insertIdx_of_le_length (slot_le_length entries passage)]

private theorem extend_ne_nil (entries : List Entry) (passage : Passage) :
    extend entries passage ≠ [] := by
  cases entries with
  | nil => simp [extend, opening]
  | cons entry entries =>
    intro hnil
    have hlength := length_extend (List.cons_ne_nil entry entries) passage
    rw [hnil] at hlength
    simp at hlength

theorem ofPassages_eq_nil_iff {passages : List Passage} :
    ofPassages passages = [] ↔ passages = [] := by
  induction passages using List.reverseRecOn with
  | nil => simp
  | append_singleton passages passage _ =>
    simp [ofPassages_push, extend_ne_nil]

/-- The entries of a handler are its rules, each once, and a state snapshot if the first rule asks
for one. -/
theorem ofPassages_perm (passages : List Passage) :
    (ofPassages passages).Perm (passages.map .rule ++
      if passages.head?.any (·.reaction.isAdvanced) then [.stateSync] else []) := by
  induction passages using List.reverseRecOn with
  | nil => exact List.Perm.refl _
  | append_singleton passages passage ih =>
    rw [ofPassages_push]
    by_cases hnil : passages = []
    · subst hnil
      exact List.Perm.refl _
    · have hhead : (passages ++ [passage]).head? = passages.head? :=
        List.head?_append_of_ne_nil _ hnil
      rw [extend_of_ne_nil (mt ofPassages_eq_nil_iff.mp hnil), hhead, List.map_append,
        List.append_assoc]
      refine (List.perm_insertIdx _ _ (slot_le_length _ _)).trans ?_
      exact (ih.cons _).trans List.perm_middle.symm

theorem rule_mem_ofPassages {passages : List Passage} {passage : Passage} :
    .rule passage ∈ ofPassages passages ↔ passage ∈ passages := by
  rw [(ofPassages_perm passages).mem_iff, List.mem_append, List.mem_map]
  constructor
  · intro h
    rcases h with ⟨other, hother, heq⟩ | hsync
    · cases heq
      exact hother
    · split at hsync
      · simp at hsync
      · simp at hsync
  · intro h
    exact .inl ⟨passage, h, rfl⟩

end Chapter

/-- What a segment of the script is: the header of a handler, or an entry of it. -/
structure Piece where
  handler : Handler
  entry : Option Entry

namespace Piece

def header (handler : Handler) : Piece := ⟨handler, none⟩

def ofPassage (passage : Passage) : Piece := ⟨passage.handler, some (.rule passage)⟩

def stateSync (handler : Handler) : Piece := ⟨handler, some .stateSync⟩

def segment (piece : Piece) : Segment :=
  match piece.entry with
  | none => .header piece.handler
  | some entry => entry.segment

def isHeader (handler : Handler) (piece : Piece) : Bool :=
  piece.handler = handler && piece.entry.isNone

def passage? (piece : Piece) : Option Passage := piece.entry.bind Entry.passage?

def isRule (number : Nat) (piece : Piece) : Bool :=
  piece.passage?.any fun passage => passage.number = number

@[simp] theorem passage?_header (handler : Handler) : (header handler).passage? = none := rfl

@[simp] theorem passage?_stateSync (handler : Handler) : (stateSync handler).passage? = none := rfl

@[simp] theorem passage?_ofPassage (passage : Passage) :
    (ofPassage passage).passage? = some passage := rfl

end Piece

def block (handler : Handler) (entries : List Entry) : List Piece :=
  .header handler :: entries.map (⟨handler, some ·⟩)

theorem length_block (handler : Handler) (entries : List Entry) :
    (block handler entries).length = entries.length + 1 := by
  rw [block, List.length_cons, List.length_map]

theorem map_segment_block (handler : Handler) (entries : List Entry) :
    (block handler entries).map Piece.segment =
      .header handler :: entries.map Entry.segment := by
  rw [block, List.map_cons, List.map_map]
  rfl

theorem handlersOf_map_push_of_mem {passages : List Passage} {passage : Passage}
    (h : passage.handler ∈ handlersOf (passages.map Passage.reaction)) :
    handlersOf ((passages ++ [passage]).map Passage.reaction) =
      handlersOf (passages.map Passage.reaction) := by
  rw [List.map_append, List.map_singleton, handlersOf_push_of_mem h]

theorem handlersOf_map_push_of_not_mem {passages : List Passage} {passage : Passage}
    (h : passage.handler ∉ handlersOf (passages.map Passage.reaction)) :
    handlersOf ((passages ++ [passage]).map Passage.reaction) =
      handlersOf (passages.map Passage.reaction) ++ [passage.handler] := by
  rw [List.map_append, List.map_singleton, handlersOf_push_of_not_mem h]

def ofHandler (handler : Handler) (passages : List Passage) : List Passage :=
  passages.filter fun passage => passage.handler = handler

def entriesOf (handler : Handler) (passages : List Passage) : List Entry :=
  Chapter.ofPassages (ofHandler handler passages)

def blocksOf (handlers : List Handler) (passages : List Passage) : List Piece :=
  handlers.flatMap fun handler => block handler (entriesOf handler passages)

def outline (passages : List Passage) : List Piece :=
  blocksOf (handlersOf (passages.map Passage.reaction)) passages

theorem map_reaction_ofHandler (handler : Handler) (passages : List Passage) :
    (ofHandler handler passages).map Passage.reaction =
      (passages.map Passage.reaction).filter fun reaction => reaction.handler = handler := by
  rw [ofHandler, List.filter_map]
  rfl

theorem ofHandler_push_self (passages : List Passage) (passage : Passage) :
    ofHandler passage.handler (passages ++ [passage]) =
      ofHandler passage.handler passages ++ [passage] := by
  simp [ofHandler]

theorem ofHandler_push_of_ne (passages : List Passage) {passage : Passage} {handler : Handler}
    (h : passage.handler ≠ handler) :
    ofHandler handler (passages ++ [passage]) = ofHandler handler passages := by
  simp [ofHandler, h]

theorem entriesOf_push_self (passages : List Passage) (passage : Passage) :
    entriesOf passage.handler (passages ++ [passage]) =
      Chapter.extend (entriesOf passage.handler passages) passage := by
  rw [entriesOf, ofHandler_push_self, Chapter.ofPassages_push, ← entriesOf]

theorem entriesOf_push_of_ne (passages : List Passage) {passage : Passage} {handler : Handler}
    (h : passage.handler ≠ handler) :
    entriesOf handler (passages ++ [passage]) = entriesOf handler passages := by
  rw [entriesOf, ofHandler_push_of_ne passages h, ← entriesOf]

theorem ofHandler_ne_nil_iff {handler : Handler} {passages : List Passage} :
    ofHandler handler passages ≠ [] ↔ handler ∈ handlersOf (passages.map Passage.reaction) := by
  rw [Ne, ofHandler, List.filter_eq_nil_iff, mem_handlersOf]
  simp

theorem entriesOf_ne_nil_iff {handler : Handler} {passages : List Passage} :
    entriesOf handler passages ≠ [] ↔ handler ∈ handlersOf (passages.map Passage.reaction) := by
  rw [Ne, entriesOf, Chapter.ofPassages_eq_nil_iff, ← ofHandler_ne_nil_iff]

theorem entriesOf_eq_nil {handler : Handler} {passages : List Passage}
    (h : handler ∉ handlersOf (passages.map Passage.reaction)) : entriesOf handler passages = [] :=
  not_not.mp (mt entriesOf_ne_nil_iff.mp h)

theorem exists_split_of_entry {handler : Handler} {passages : List Passage} {index : Nat}
    {entry : Entry} (h : (entriesOf handler passages)[index]? = some entry) :
    ∃ before after, handlersOf (passages.map Passage.reaction) = before ++ handler :: after :=
  List.append_of_mem (entriesOf_ne_nil_iff.mp (List.ne_nil_of_mem (List.mem_of_getElem? h)))

theorem rule_mem_entriesOf {handler : Handler} {passages : List Passage} {passage : Passage} :
    .rule passage ∈ entriesOf handler passages ↔
      passage ∈ passages ∧ passage.handler = handler := by
  rw [entriesOf, Chapter.rule_mem_ofPassages, ofHandler, List.mem_filter, decide_eq_true_eq]

private theorem blocksOf_push_of_not_mem {handlers : List Handler} (passages : List Passage)
    {passage : Passage} (h : passage.handler ∉ handlers) :
    blocksOf handlers (passages ++ [passage]) = blocksOf handlers passages := by
  unfold blocksOf
  apply List.flatMap_congr
  intro handler hhandler
  rw [entriesOf_push_of_ne passages fun heq => h (heq ▸ hhandler)]

theorem handler_of_mem_blocksOf {handlers : List Handler} {passages : List Passage} {piece : Piece}
    (h : piece ∈ blocksOf handlers passages) : piece.handler ∈ handlers := by
  obtain ⟨handler, hhandler, hpiece⟩ := List.mem_flatMap.mp h
  rw [block, List.mem_cons, List.mem_map] at hpiece
  rcases hpiece with rfl | ⟨entry, _, rfl⟩
  · exact hhandler
  · exact hhandler

theorem block_opening (passage : Passage) :
    block passage.handler (Chapter.opening passage) =
      .header passage.handler :: .ofPassage passage ::
        if passage.reaction.isAdvanced then [.stateSync passage.handler] else [] := by
  unfold Chapter.opening
  split <;> rfl

/-- A first rule adds the block of its handler at the end. -/
theorem outline_push_of_not_mem {passages : List Passage} {passage : Passage}
    (h : passage.handler ∉ handlersOf (passages.map Passage.reaction)) :
    outline (passages ++ [passage]) =
      outline passages ++ block passage.handler (Chapter.opening passage) := by
  have hnil := entriesOf_eq_nil h
  have hentries : entriesOf passage.handler (passages ++ [passage]) = Chapter.opening passage := by
    rw [entriesOf_push_self, hnil]
    rfl
  rw [outline, handlersOf_map_push_of_not_mem h, blocksOf, List.flatMap_append, ← blocksOf,
    blocksOf_push_of_not_mem passages h, ← outline]
  change outline passages ++
    [passage.handler].flatMap (fun handler => block handler (entriesOf handler _)) = _
  rw [List.flatMap_singleton, hentries]

theorem outline_split {passages : List Passage} {before after : List Handler} {handler : Handler}
    (h : handlersOf (passages.map Passage.reaction) = before ++ handler :: after) :
    outline passages =
      blocksOf before passages ++
        (block handler (entriesOf handler passages) ++ blocksOf after passages) := by
  rw [outline, h, blocksOf, List.flatMap_append, List.flatMap_cons]
  rfl

theorem getElem?_header_of_split {passages : List Passage} {before after : List Handler}
    {handler : Handler}
    (h : handlersOf (passages.map Passage.reaction) = before ++ handler :: after) :
    (outline passages)[(blocksOf before passages).length]? = some (.header handler) := by
  rw [outline_split h, List.getElem?_append_right (Nat.le_refl _), Nat.sub_self, block]
  rfl

theorem getElem?_entry_of_split {passages : List Passage} {before after : List Handler}
    {handler : Handler}
    (h : handlersOf (passages.map Passage.reaction) = before ++ handler :: after) {index : Nat}
    {entry : Entry} (hentry : (entriesOf handler passages)[index]? = some entry) :
    (outline passages)[(blocksOf before passages).length + 1 + index]? =
      some ⟨handler, some entry⟩ := by
  obtain ⟨hlt, _⟩ := List.getElem?_eq_some_iff.mp hentry
  rw [outline_split h, Nat.add_assoc, List.getElem?_append_right (Nat.le_add_right _ _),
    Nat.add_sub_cancel_left, List.getElem?_append_left (by rw [length_block]; omega), block,
    Nat.add_comm, List.getElem?_cons_succ, List.getElem?_map, hentry, Option.map_some]

theorem exists_split_of_lt {passages : List Passage} {position : Nat}
    (h : position < (outline passages).length) :
    ∃ before handler after,
      handlersOf (passages.map Passage.reaction) = before ++ handler :: after ∧
        (blocksOf before passages).length ≤ position ∧
        position ≤ (blocksOf before passages).length + (entriesOf handler passages).length := by
  obtain ⟨before, handler, after, hsplit, hstart, hstop⟩ := exists_split_of_lt_length_flatMap _ _ h
  rw [length_block] at hstop
  refine ⟨before, handler, after, hsplit, hstart, ?_⟩
  rw [blocksOf]
  omega

theorem slot_le_length_outline {passages : List Passage} {passage : Passage}
    {before after : List Handler}
    (h : handlersOf (passages.map Passage.reaction) = before ++ passage.handler :: after) :
    (blocksOf before passages).length + 1 +
        Chapter.slot (entriesOf passage.handler passages) passage ≤ (outline passages).length := by
  have hslot := Chapter.slot_le_length (entriesOf passage.handler passages) passage
  rw [outline_split h, List.length_append, List.length_append, length_block]
  omega

/-- A further rule goes into the block of its handler and changes no other block. -/
theorem outline_push_of_split {passages : List Passage} {passage : Passage}
    {before after : List Handler}
    (h : handlersOf (passages.map Passage.reaction) = before ++ passage.handler :: after) :
    outline (passages ++ [passage]) =
      (outline passages).insertIdx
        ((blocksOf before passages).length + 1 +
          Chapter.slot (entriesOf passage.handler passages) passage)
        (.ofPassage passage) := by
  obtain ⟨hbefore, hafter⟩ := not_mem_of_split h
  have hmem : passage.handler ∈ handlersOf (passages.map Passage.reaction) := by simp [h]
  have hne := entriesOf_ne_nil_iff.mpr hmem
  have hsplit : handlersOf ((passages ++ [passage]).map Passage.reaction) =
      before ++ passage.handler :: after := by
    rw [handlersOf_map_push_of_mem hmem, h]
  have hslot := Chapter.slot_le_length (entriesOf passage.handler passages) passage
  rw [outline_split hsplit, outline_split h, blocksOf_push_of_not_mem passages hbefore,
    blocksOf_push_of_not_mem passages hafter, entriesOf_push_self, Chapter.extend_of_ne_nil hne,
    Nat.add_assoc, insertIdx_append_right,
    insertIdx_append_left _ _ _ _ (by rw [length_block]; omega)]
  congr 2
  rw [Nat.add_comm, block, block, List.insertIdx_succ_cons, List.map_insertIdx]
  rfl

theorem findIdx_isHeader {passages : List Passage} {before after : List Handler}
    {handler : Handler}
    (h : handlersOf (passages.map Passage.reaction) = before ++ handler :: after) :
    (outline passages).findIdx (Piece.isHeader handler) = (blocksOf before passages).length := by
  have hnone : ∀ piece ∈ blocksOf before passages, piece.isHeader handler = false := by
    intro piece hpiece
    have hne : piece.handler ≠ handler := fun heq =>
      (not_mem_of_split h).1 (heq ▸ handler_of_mem_blocksOf hpiece)
    simp [Piece.isHeader, hne]
  rw [outline_split h, List.findIdx_append, List.findIdx_eq_length_of_false hnone,
    if_neg (by omega)]
  simp [block, Piece.isHeader, Piece.header, List.findIdx_cons]

private theorem append_block_perm (rules headers syncs sync : List Piece) (header rule : Piece) :
    ((rules ++ (headers ++ syncs)) ++ (header :: rule :: sync)).Perm
      ((rules ++ [rule]) ++ ((headers ++ [header]) ++ (syncs ++ sync))) := by
  simp only [List.append_assoc, List.singleton_append]
  apply List.Perm.append_left
  calc List.Perm (headers ++ (syncs ++ header :: rule :: sync))
        (headers ++ header :: rule :: (syncs ++ sync)) :=
        (List.perm_middle.trans (List.perm_middle.cons header)).append_left headers
    List.Perm _ (header :: (headers ++ rule :: (syncs ++ sync))) := List.perm_middle
    List.Perm _ (header :: rule :: (headers ++ (syncs ++ sync))) := List.perm_middle.cons header
    List.Perm _ (rule :: header :: (headers ++ (syncs ++ sync))) := List.Perm.swap _ _ _
    List.Perm _ (rule :: (headers ++ header :: (syncs ++ sync))) := List.perm_middle.symm.cons rule

/-- The script holds each rule once, a header for each handler that some rule belongs to, and a
state snapshot for each of them that an advanced rule opens. -/
theorem outline_perm (passages : List Passage) :
    (outline passages).Perm
      (passages.map .ofPassage ++
        ((handlersOf (passages.map Passage.reaction)).map .header ++
          ((handlersOf (passages.map Passage.reaction)).filter
            (opensAdvanced (passages.map Passage.reaction))).map .stateSync)) := by
  induction passages using List.reverseRecOn with
  | nil => exact List.Perm.refl _
  | append_singleton passages passage ih =>
    by_cases hmem : passage.handler ∈ handlersOf (passages.map Passage.reaction)
    · obtain ⟨before, after, hsplit⟩ := List.append_of_mem hmem
      rw [outline_push_of_split hsplit, List.map_append, List.map_append, List.map_singleton,
        List.map_singleton, filter_opensAdvanced_push_of_mem hmem, handlersOf_push_of_mem hmem]
      refine (List.perm_insertIdx _ _ (slot_le_length_outline hsplit)).trans ?_
      rw [List.append_assoc]
      exact (ih.cons _).trans List.perm_middle.symm
    · rw [outline_push_of_not_mem hmem, List.map_append, List.map_append, List.map_singleton,
        List.map_singleton, filter_opensAdvanced_push_of_not_mem hmem,
        handlersOf_push_of_not_mem hmem, List.map_append, List.map_append, block_opening]
      have hsync : (if passage.reaction.isAdvanced then [passage.handler] else []).map
          Piece.stateSync =
            if passage.reaction.isAdvanced then [.stateSync passage.handler] else [] := by
        split <;> rfl
      refine (ih.append_right _).trans ?_
      rw [hsync]
      exact append_block_perm _ _ _ _ _ _

private theorem filterMap_outline_perm (passages : List Passage) :
    ((outline passages).filterMap Piece.passage?).Perm passages := by
  have hperm := (outline_perm passages).filterMap Piece.passage?
  simpa [List.filterMap_append, List.filterMap_map, Function.comp_def] using hperm

theorem ofPassage_mem_outline {passages : List Passage} {passage : Passage}
    (h : passage ∈ passages) : Piece.ofPassage passage ∈ outline passages := by
  rw [(outline_perm passages).mem_iff]
  exact List.mem_append_left _ (List.mem_map_of_mem h)

theorem eq_ofPassage_of_mem_outline {passages : List Passage} {piece : Piece} {passage : Passage}
    (hmem : piece ∈ outline passages) (h : piece.passage? = some passage) :
    piece = .ofPassage passage ∧ passage ∈ passages := by
  rw [(outline_perm passages).mem_iff] at hmem
  simp only [List.mem_append, List.mem_map] at hmem
  rcases hmem with ⟨other, hother, rfl⟩ | ⟨handler, _, rfl⟩ | ⟨handler, _, rfl⟩
  · rw [Piece.passage?_ofPassage] at h
    cases h
    exact ⟨rfl, hother⟩
  · simp at h
  · simp at h

theorem isRule_eq_false_of_not_mem {passages : List Passage} {number : Nat}
    (h : number ∉ passages.map Passage.number) :
    ∀ piece ∈ outline passages, piece.isRule number = false := by
  intro piece hpiece
  rw [Bool.eq_false_iff, Ne, Piece.isRule, Option.any_eq_true]
  intro hh
  obtain ⟨passage, hpassage, heq⟩ := hh
  have hmem := (eq_ofPassage_of_mem_outline hpiece hpassage).2
  exact h (of_decide_eq_true heq ▸ List.mem_map_of_mem hmem)

private theorem outline_pairwise {passages : List Passage}
    (h : (passages.map Passage.number).Nodup) :
    (outline passages).Pairwise fun one other => ∀ number, ¬(one.isRule number ∧
      other.isRule number) := by
  have hnodup := ((filterMap_outline_perm passages).map Passage.number).nodup_iff.mpr h
  rw [List.Nodup, List.pairwise_map, List.pairwise_filterMap] at hnodup
  refine hnodup.imp ?_
  intro one other hne number hh
  obtain ⟨hone, hother⟩ := hh
  rw [Piece.isRule, Option.any_eq_true] at hone hother
  obtain ⟨passage, hpassage, hnumber⟩ := hone
  obtain ⟨passage', hpassage', hnumber'⟩ := hother
  have heq : passage.number = passage'.number := by
    rw [of_decide_eq_true hnumber, of_decide_eq_true hnumber']
  exact hne passage hpassage passage' hpassage' heq

/-- Where a rule stands is where it is found. -/
theorem findIdx_isRule {passages : List Passage} (h : (passages.map Passage.number).Nodup)
    {position number : Nat} {piece : Piece} (hget : (outline passages)[position]? = some piece)
    (hrule : piece.isRule number = true) :
    (outline passages).findIdx (Piece.isRule number) = position := by
  obtain ⟨hlt, hpiece⟩ := List.getElem?_eq_some_iff.mp hget
  rw [List.findIdx_eq hlt, hpiece]
  refine ⟨hrule, ?_⟩
  intro earlier hearlier
  have hpairwise := List.pairwise_iff_getElem.mp (outline_pairwise h) earlier position (by omega)
    hlt hearlier number
  rw [hpiece] at hpairwise
  exact Bool.eq_false_iff.mpr fun hrule' => hpairwise ⟨hrule', hrule⟩

theorem findIdx_isRule_of_split {passages : List Passage} {before after : List Handler}
    {handler : Handler} (h : (passages.map Passage.number).Nodup)
    (hsplit : handlersOf (passages.map Passage.reaction) = before ++ handler :: after) {index : Nat}
    {passage : Passage} (hentry : (entriesOf handler passages)[index]? = some (.rule passage)) :
    (outline passages).findIdx (Piece.isRule passage.number) =
      (blocksOf before passages).length + 1 + index := by
  apply findIdx_isRule h (getElem?_entry_of_split hsplit hentry)
  simp [Piece.isRule, Piece.passage?, Entry.passage?]

theorem getElem?_findIdx_isRule {passages : List Passage}
    (h : (passages.map Passage.number).Nodup) {passage : Passage} (hmem : passage ∈ passages) :
    (outline passages)[(outline passages).findIdx (Piece.isRule passage.number)]? =
      some (.ofPassage passage) := by
  obtain ⟨position, hget⟩ := List.mem_iff_getElem?.mp (ofPassage_mem_outline hmem)
  have hrule : (Piece.ofPassage passage).isRule passage.number = true := by simp [Piece.isRule]
  rw [findIdx_isRule h hget hrule, hget]

end VisualRules
