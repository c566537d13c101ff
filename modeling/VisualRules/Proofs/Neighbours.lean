import Mathlib.Data.List.Chain
import VisualRules.Proofs.Listing

/-!
# Characters that never meet

Whether one character ever stands right before another one in a text. If it never does, then no
longer text with the two next to each other is found in it. The numbers in the code of a rule are
not known, but letters and brackets meet only in the fixed words around them.
-/

namespace VisualRules

/-- The first character never stands right before the second one. -/
def NeverMeet (first second : Char) (text : List Char) : Prop :=
  text.IsChain fun c d => ¬(c = first ∧ d = second)

instance (first second : Char) (text : List Char) : Decidable (NeverMeet first second text) :=
  inferInstanceAs (Decidable (text.IsChain _))

namespace NeverMeet

variable {first second : Char} {text other : List Char}

theorem of_not_mem_first (h : first ∉ text) : NeverMeet first second text := by
  induction text with
  | nil => exact .nil
  | cons c rest ih =>
    rw [List.mem_cons, not_or] at h
    exact List.isChain_cons.mpr ⟨fun _ _ hmeet => h.1 hmeet.1.symm, ih h.2⟩

theorem of_not_mem_second (h : second ∉ text) : NeverMeet first second text := by
  induction text with
  | nil => exact .nil
  | cons c rest ih =>
    rw [List.mem_cons, not_or] at h
    refine List.isChain_cons.mpr ⟨fun d hd hmeet => h.2 ?_, ih h.2⟩
    exact hmeet.2 ▸ List.mem_of_mem_head? hd

/-- Where two texts join, the characters meet only if one ends with the first of them and the other
begins with the second. -/
theorem append (h : NeverMeet first second text) (hother : NeverMeet first second other)
    (hjoin : text.getLast? ≠ some first ∨ other.head? ≠ some second) :
    NeverMeet first second (text ++ other) := by
  refine List.isChain_append.mpr ⟨h, hother, ?_⟩
  rintro c hc d hd ⟨rfl, rfl⟩
  exact hjoin.elim (· hc) (· hd)

theorem mono (h : NeverMeet first second text) (hpart : other <:+: text) :
    NeverMeet first second other :=
  List.IsChain.infix h hpart

theorem absent (h : NeverMeet first second text) (hother : ¬NeverMeet first second other) :
    ¬other <:+: text :=
  fun hpart => hother (h.mono hpart)

theorem intercalate {separator : String} {texts : List String}
    (hseparator : NeverMeet first second separator.toList)
    (hlast : separator.toList.getLast? ≠ some first) (hhead : separator.toList.head? ≠ some second)
    (hne : separator.toList ≠ []) (h : ∀ text ∈ texts, NeverMeet first second text.toList) :
    NeverMeet first second (separator.intercalate texts).toList := by
  induction texts with
  | nil => exact .nil
  | cons text rest ih =>
    rw [List.forall_mem_cons] at h
    by_cases hrest : rest = []
    · rw [hrest, String.intercalate_singleton]
      exact h.1
    · rw [String.intercalate_cons_of_ne_nil hrest, String.toList_append, String.toList_append]
      refine (h.1.append hseparator (.inr hhead)).append (ih h.2) (.inl ?_)
      rwa [List.getLast?_append_of_ne_nil _ hne]

/-- Lines add tabs and line breaks to their code, so what does not meet on them does not meet at
all. -/
theorem textOf {lines : List Line} (hfirst : first ∉ ['\t', '\n']) (hsecond : second ≠ '\n')
    (h : ∀ line ∈ lines, NeverMeet first second line.code.toList) :
    NeverMeet first second (Line.textOf lines).toList := by
  induction lines with
  | nil => exact .nil
  | cons line lines ih =>
    rw [List.forall_mem_cons] at h
    simp only [List.mem_cons, List.not_mem_nil, or_false, not_or] at hfirst
    have htabs : first ∉ List.replicate line.depth '\t' := fun hmem =>
      hfirst.1 (List.eq_of_mem_replicate hmem)
    have hcontent : NeverMeet first second line.content.toList := by
      rw [Line.content, String.toList_append, String.toList_ofList]
      exact (of_not_mem_first htabs).append h.1 (.inl fun hlast =>
        htabs (List.mem_of_getLast? hlast))
    have hbreak : NeverMeet first second ('\n' :: (Line.textOf lines).toList) :=
      List.isChain_cons.mpr ⟨fun _ _ hmeet => hfirst.2 hmeet.1.symm, ih h.2⟩
    rw [Line.toList_textOf_cons]
    refine hcontent.append hbreak (.inr ?_)
    rw [List.head?_cons, Ne, Option.some.injEq]
    exact hsecond.symm

end NeverMeet

end VisualRules
