import Mathlib.Logic.Function.Basic
import VisualRules.Proofs.Outline

namespace VisualRules

variable (f : Nat → Nat)

namespace Passage

def renumber (passage : Passage) : Passage := { passage with number := f passage.number }

@[simp] theorem map_reaction_renumber (passages : List Passage) :
    (passages.map (renumber f)).map reaction = passages.map reaction := by
  rw [List.map_map]
  rfl

@[simp] theorem map_number_renumber (passages : List Passage) :
    (passages.map (renumber f)).map number = (passages.map number).map f := by
  rw [List.map_map, List.map_map]
  rfl

end Passage

namespace Entry

def renumber : Entry → Entry
  | rule passage => rule (passage.renumber f)
  | stateSync => stateSync

@[simp] theorem segment_renumber (entry : Entry) : (entry.renumber f).segment = entry.segment := by
  cases entry with
  | rule passage => rfl
  | stateSync => rfl

@[simp] theorem isConditional_renumber (entry : Entry) :
    (entry.renumber f).isConditional = entry.isConditional := by
  cases entry with
  | rule passage => rfl
  | stateSync => rfl

end Entry

namespace Chapter

private theorem opening_renumber (passage : Passage) :
    opening (passage.renumber f) = (opening passage).map (Entry.renumber f) := by
  simp only [opening, List.map_cons]
  change _ :: (if passage.reaction.isAdvanced then _ else _) = _
  split
  · rfl
  · rfl

private theorem slot_renumber (entries : List Entry) (passage : Passage) :
    slot (entries.map (Entry.renumber f)) (passage.renumber f) = slot entries passage := by
  have hconditional : Entry.isConditional ∘ Entry.renumber f = Entry.isConditional :=
    funext (Entry.isConditional_renumber f)
  rw [slot, slot, List.length_map, List.findIdx_map, hconditional]
  rfl

private theorem extend_renumber (entries : List Entry) (passage : Passage) :
    extend (entries.map (Entry.renumber f)) (passage.renumber f) =
      (extend entries passage).map (Entry.renumber f) := by
  by_cases hnil : entries = []
  · rw [hnil]
    exact opening_renumber f passage
  · rw [extend_of_ne_nil hnil, extend_of_ne_nil (by simpa using hnil), slot_renumber,
      List.map_insertIdx]
    rfl

private theorem ofPassages_renumber (passages : List Passage) :
    ofPassages (passages.map (Passage.renumber f)) =
      (ofPassages passages).map (Entry.renumber f) := by
  induction passages using List.reverseRecOn with
  | nil => rfl
  | append_singleton passages passage ih =>
    rw [List.map_append, List.map_singleton, ofPassages_push, ofPassages_push, ih, extend_renumber]

end Chapter

namespace Piece

def renumber (piece : Piece) : Piece := { piece with entry := piece.entry.map (Entry.renumber f) }

@[simp] theorem segment_renumber (piece : Piece) : (piece.renumber f).segment = piece.segment := by
  obtain ⟨handler, entry⟩ := piece
  cases entry with
  | none => rfl
  | some entry => exact entry.segment_renumber f

private theorem isRule_renumber (hf : Function.Injective f) (number : Nat) (piece : Piece) :
    (piece.renumber f).isRule (f number) = piece.isRule number := by
  obtain ⟨handler, entry⟩ := piece
  match entry with
  | none => rfl
  | some .stateSync => rfl
  | some (.rule passage) =>
    change decide (f passage.number = f number) = decide (passage.number = number)
    simp only [hf.eq_iff]

end Piece

private theorem ofHandler_renumber (handler : Handler) (passages : List Passage) :
    ofHandler handler (passages.map (Passage.renumber f)) =
      (ofHandler handler passages).map (Passage.renumber f) := by
  rw [ofHandler, List.filter_map]
  rfl

theorem entriesOf_renumber (handler : Handler) (passages : List Passage) :
    entriesOf handler (passages.map (Passage.renumber f)) =
      (entriesOf handler passages).map (Entry.renumber f) := by
  rw [entriesOf, ofHandler_renumber, Chapter.ofPassages_renumber, ← entriesOf]

theorem outline_renumber (passages : List Passage) :
    outline (passages.map (Passage.renumber f)) = (outline passages).map (Piece.renumber f) := by
  rw [outline, outline, Passage.map_reaction_renumber, blocksOf, blocksOf, List.map_flatMap]
  apply List.flatMap_congr
  intro handler _
  rw [entriesOf_renumber, block, block, List.map_cons, List.map_map, List.map_map]
  rfl

theorem findIdx_outline_renumber (hf : Function.Injective f) (passages : List Passage)
    (number : Nat) :
    (outline (passages.map (Passage.renumber f))).findIdx (Piece.isRule (f number)) =
      (outline passages).findIdx (Piece.isRule number) := by
  have hrule : Piece.isRule (f number) ∘ Piece.renumber f = Piece.isRule number :=
    funext (Piece.isRule_renumber f hf number)
  rw [outline_renumber, List.findIdx_map, hrule]

end VisualRules
