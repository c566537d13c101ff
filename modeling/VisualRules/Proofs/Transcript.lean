import Mathlib.Data.List.Induction
import Mathlib.Data.List.Nodup
import VisualRules.Proofs.Resolution
import VisualRules.Script.Assembly

namespace VisualRules

/-- The handlers that rules belong to, each once, in the order of their first rules. -/
def handlersOf (reactions : List Reaction) : List Handler :=
  (reactions.map Reaction.handler).eraseDups

theorem mem_handlersOf {reactions : List Reaction} {handler : Handler} :
    handler ∈ handlersOf reactions ↔ ∃ reaction ∈ reactions, reaction.handler = handler := by
  rw [handlersOf, List.mem_eraseDups, List.mem_map]

theorem mem_handlersOf_iff_exists_rule {advancedMode : Bool} {rules : List Rule}
    {reactions : List Reaction} {handler : Handler}
    (h : List.Forall₂ (fun rule reaction => rule.toReaction advancedMode = .ok reaction)
      rules reactions) :
    handler ∈ handlersOf reactions ↔ ∃ rule ∈ rules, rule.handler? = some handler := by
  rw [mem_handlersOf, exists_mem_iff_of_forall₂ h]
  intro rule reaction hrule
  rw [Rule.handler?_of_toReaction hrule, Option.some.injEq]

private theorem contains_handler_iff {reactions : List Reaction} {handler : Handler} :
    (reactions.map Reaction.handler).contains handler = true ↔ handler ∈ handlersOf reactions := by
  rw [List.contains_iff_mem, handlersOf, List.mem_eraseDups]

theorem handlersOf_append_cons_of_mem {reactions : List Reaction} {reaction : Reaction}
    (h : reaction.handler ∈ handlersOf reactions) (rest : List Reaction) :
    handlersOf (reactions ++ reaction :: rest) = handlersOf (reactions ++ rest) := by
  have hcontains := contains_handler_iff.mpr h
  simp only [handlersOf, List.map_append, List.map_cons, List.eraseDups_append, List.cons_removeAll]
  rw [if_neg (by rw [hcontains]; decide)]

theorem handlersOf_push_of_mem {reactions : List Reaction} {reaction : Reaction}
    (h : reaction.handler ∈ handlersOf reactions) :
    handlersOf (reactions ++ [reaction]) = handlersOf reactions := by
  rw [handlersOf_append_cons_of_mem h, List.append_nil]

theorem handlersOf_push_of_not_mem {reactions : List Reaction} {reaction : Reaction}
    (h : reaction.handler ∉ handlersOf reactions) :
    handlersOf (reactions ++ [reaction]) = handlersOf reactions ++ [reaction.handler] := by
  have hcontains := Bool.eq_false_iff.mpr (mt contains_handler_iff.mp h)
  simp only [handlersOf, List.map_append, List.map_singleton, List.eraseDups_append,
    List.cons_removeAll]
  rw [if_pos hcontains]
  rfl

theorem nodup_handlersOf (reactions : List Reaction) : (handlersOf reactions).Nodup := by
  induction reactions using List.reverseRecOn with
  | nil => exact List.nodup_nil
  | append_singleton reactions reaction ih =>
    by_cases hmem : reaction.handler ∈ handlersOf reactions
    · rw [handlersOf_push_of_mem hmem]
      exact ih
    · rw [handlersOf_push_of_not_mem hmem]
      simpa using ih.concat hmem

theorem not_mem_of_split {reactions : List Reaction} {before after : List Handler}
    {handler : Handler} (h : handlersOf reactions = before ++ handler :: after) :
    handler ∉ before ∧ handler ∉ after := by
  have hnodup := nodup_handlersOf reactions
  rw [h, List.nodup_append] at hnodup
  obtain ⟨_, hafter, hdisjoint⟩ := hnodup
  refine ⟨?_, (List.nodup_cons.mp hafter).1⟩
  intro hbefore
  exact hdisjoint handler hbefore handler List.mem_cons_self rfl

def opensAdvanced (reactions : List Reaction) (handler : Handler) : Bool :=
  (reactions.find? fun reaction => reaction.handler = handler).any Reaction.isAdvanced

/-- A later rule does not change which rule opened the handler. -/
theorem opensAdvanced_push_of_mem {reactions : List Reaction} {handler : Handler}
    (h : handler ∈ handlersOf reactions) (reaction : Reaction) :
    opensAdvanced (reactions ++ [reaction]) handler = opensAdvanced reactions handler := by
  obtain ⟨opener, hopener, heq⟩ := mem_handlersOf.mp h
  have hfound : (reactions.find? fun other => other.handler = handler).isSome = true := by
    rw [List.find?_isSome]
    exact ⟨opener, hopener, by simpa using heq⟩
  obtain ⟨first, hfirst⟩ := Option.isSome_iff_exists.mp hfound
  rw [opensAdvanced, opensAdvanced, List.find?_append, hfirst, Option.some_or]

private theorem opensAdvanced_push_of_not_mem {reactions : List Reaction} {reaction : Reaction}
    (h : reaction.handler ∉ handlersOf reactions) :
    opensAdvanced (reactions ++ [reaction]) reaction.handler = reaction.isAdvanced := by
  have hnone : reactions.find? (fun other => other.handler = reaction.handler) = none := by
    rw [List.find?_eq_none]
    intro other hother
    simpa using fun heq => h (mem_handlersOf.mpr ⟨other, hother, heq⟩)
  rw [opensAdvanced, List.find?_append, hnone, Option.none_or]
  simp

theorem filter_opensAdvanced_push_of_mem {reactions : List Reaction} {reaction : Reaction}
    (h : reaction.handler ∈ handlersOf reactions) :
    (handlersOf (reactions ++ [reaction])).filter (opensAdvanced (reactions ++ [reaction])) =
      (handlersOf reactions).filter (opensAdvanced reactions) := by
  rw [handlersOf_push_of_mem h]
  exact List.filter_congr fun handler hhandler => opensAdvanced_push_of_mem hhandler reaction

theorem filter_opensAdvanced_push_of_not_mem {reactions : List Reaction} {reaction : Reaction}
    (h : reaction.handler ∉ handlersOf reactions) :
    (handlersOf (reactions ++ [reaction])).filter (opensAdvanced (reactions ++ [reaction])) =
      (handlersOf reactions).filter (opensAdvanced reactions) ++
        if reaction.isAdvanced then [reaction.handler] else [] := by
  have hfilter : (handlersOf reactions).filter (opensAdvanced (reactions ++ [reaction])) =
      (handlersOf reactions).filter (opensAdvanced reactions) :=
    List.filter_congr fun handler hhandler => opensAdvanced_push_of_mem hhandler reaction
  rw [handlersOf_push_of_not_mem h, List.filter_append, hfilter, List.filter_singleton,
    opensAdvanced_push_of_not_mem h]
  cases reaction.isAdvanced <;> rfl

/-- A rule that has been written: its number in the program, and its script. -/
structure Passage where
  number : Nat
  reaction : Reaction
  branch : Branch
  written : reaction.branch = .ok branch

namespace Passage

abbrev handler (passage : Passage) : Handler := passage.reaction.handler

def segment (passage : Passage) : Segment := Assembly.segmentOf passage.branch

theorem conditional_eq (passage : Passage) :
    passage.branch.conditional = passage.reaction.isConditional :=
  Reaction.conditional_of_branch passage.written

end Passage

theorem nodup_numbers_push {passages : List Passage} {passage : Passage} :
    ((passages ++ [passage]).map Passage.number).Nodup ↔
      passage.number ∉ passages.map Passage.number ∧ (passages.map Passage.number).Nodup := by
  rw [List.map_append, List.map_singleton, ← List.concat_eq_append, List.nodup_concat]

/-- The passages are the scripts of the rules, numbered in their order. -/
structure Transcribes (passages : List Passage) (reactions : List Reaction) : Prop where
  reactions_eq : passages.map Passage.reaction = reactions
  numbers_eq : passages.map Passage.number = List.range reactions.length

namespace Transcribes

private theorem nil : Transcribes [] [] := ⟨rfl, rfl⟩

theorem push {passages : List Passage} {reactions : List Reaction} {passage : Passage}
    (h : Transcribes passages reactions) (hnumber : passage.number = reactions.length) :
    Transcribes (passages ++ [passage]) (reactions ++ [passage.reaction]) where
  reactions_eq := by rw [List.map_append, h.reactions_eq, List.map_singleton]
  numbers_eq := by
    rw [List.map_append, h.numbers_eq, List.map_singleton, hnumber, List.length_append,
      List.length_singleton, List.range_succ]

theorem of_push {passages : List Passage} {passage : Passage} {reactions : List Reaction}
    (h : Transcribes (passages ++ [passage]) reactions) :
    Transcribes passages (passages.map Passage.reaction) ∧ passage.number = passages.length := by
  have hnumbers := h.numbers_eq
  rw [← h.reactions_eq, List.length_map, List.length_append, List.length_singleton,
    List.range_succ, List.map_append, List.map_singleton] at hnumbers
  obtain ⟨hfront, hlast⟩ := List.append_inj' hnumbers rfl
  exact ⟨⟨rfl, by rw [hfront, List.length_map]⟩, List.singleton_inj.mp hlast⟩

theorem length_eq {passages : List Passage} {reactions : List Reaction}
    (h : Transcribes passages reactions) : passages.length = reactions.length := by
  rw [← h.reactions_eq, List.length_map]

theorem nodup {passages : List Passage} {reactions : List Reaction}
    (h : Transcribes passages reactions) : (passages.map Passage.number).Nodup := by
  rw [h.numbers_eq]
  exact List.nodup_range

theorem number_of_getElem? {passages : List Passage} {reactions : List Reaction}
    (h : Transcribes passages reactions) {number : Nat} {passage : Passage}
    (hget : passages[number]? = some passage) : passage.number = number := by
  have hmap : (passages.map Passage.number)[number]? = some passage.number := by
    rw [List.getElem?_map, hget, Option.map_some]
  rw [h.numbers_eq] at hmap
  obtain ⟨_, hrange⟩ := List.getElem?_eq_some_iff.mp hmap
  rw [← hrange, List.getElem_range]

theorem getElem?_of_mem {passages : List Passage} {reactions : List Reaction}
    (h : Transcribes passages reactions) {passage : Passage} (hmem : passage ∈ passages) :
    passages[passage.number]? = some passage := by
  obtain ⟨index, hget⟩ := List.mem_iff_getElem?.mp hmem
  rw [h.number_of_getElem? hget, hget]

theorem exists_of_getElem? {passages : List Passage} {reactions : List Reaction}
    (h : Transcribes passages reactions) {number : Nat} {reaction : Reaction}
    (hget : reactions[number]? = some reaction) :
    ∃ passage, passages[number]? = some passage ∧ passage.reaction = reaction := by
  rw [← h.reactions_eq, List.getElem?_map, Option.map_eq_some_iff] at hget
  exact hget

theorem getElem?_reactions {passages : List Passage} {reactions : List Reaction}
    (h : Transcribes passages reactions) {number : Nat} {passage : Passage}
    (hget : passages[number]? = some passage) : reactions[number]? = some passage.reaction := by
  rw [← h.reactions_eq, List.getElem?_map, hget, Option.map_some]

end Transcribes

/-- Rules whose notes are in the tables can all be written. -/
theorem exists_transcribes {reactions : List Reaction}
    (h : ∀ reaction ∈ reactions, reaction.InTables) :
    ∃ passages, Transcribes passages reactions := by
  induction reactions using List.reverseRecOn with
  | nil => exact ⟨[], .nil⟩
  | append_singleton reactions reaction ih =>
    obtain ⟨passages, hpassages⟩ := ih fun other hother => h other (by simp [hother])
    obtain ⟨branch, hbranch⟩ := Reaction.exists_branch (h reaction (by simp))
    let passage : Passage := ⟨reactions.length, reaction, branch, hbranch⟩
    exact ⟨passages ++ [passage], hpassages.push rfl⟩

end VisualRules
