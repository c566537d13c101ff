import Mathlib.Data.List.InsertIdx
import VisualRules.Script.Layout

/-!
# Positions under insertion

To insert a segment moves everything from its position on up by one. What stands in a list at a
position is found again at the shifted position, whatever is inserted before or behind it.
-/

namespace VisualRules

variable {α : Type}

private theorem shiftFrom_succ (start position : Nat) :
    shiftFrom (start + 1) (position + 1) = shiftFrom start position + 1 := by
  simp only [shiftFrom, Nat.add_le_add_iff_right]
  split <;> rfl

theorem lt_shiftFrom_iff {start position : Nat} :
    start < shiftFrom start position ↔ start ≤ position := by
  unfold shiftFrom
  split
  · omega
  · omega

theorem shiftFrom_lt_iff {start position : Nat} :
    shiftFrom start position < start ↔ position < start := by
  unfold shiftFrom
  split
  · omega
  · omega

theorem shiftFrom_lt_shiftFrom_iff {start one other : Nat} :
    shiftFrom start one < shiftFrom start other ↔ one < other := by
  unfold shiftFrom
  split
  · split
    · omega
    · omega
  · split
    · omega
    · omega

/-- What is looked for stands at the shifted position after something else was inserted. -/
theorem findIdx_insertIdx (p : α → Bool) (l : List α) (k : Nat) (x : α) (hk : k ≤ l.length)
    (hx : p x = false) : (l.insertIdx k x).findIdx p = shiftFrom k (l.findIdx p) := by
  induction l generalizing k with
  | nil =>
    have hk0 : k = 0 := by simpa using hk
    subst hk0
    simp [List.findIdx_cons, hx, shiftFrom]
  | cons a l ih =>
    cases k with
    | zero => simp [List.findIdx_cons, hx, shiftFrom]
    | succ k =>
      rw [List.insertIdx_succ_cons, List.findIdx_cons, List.findIdx_cons]
      cases ha : p a with
      | true => simp [shiftFrom]
      | false =>
        simp only [cond_false]
        rw [ih k (by simpa using hk), shiftFrom_succ]

theorem findIdx_insertIdx_self (p : α → Bool) (l : List α) (k : Nat) (x : α) (hk : k ≤ l.length)
    (hx : p x = true) (hl : ∀ y ∈ l, p y = false) : (l.insertIdx k x).findIdx p = k := by
  induction l generalizing k with
  | nil =>
    have hk0 : k = 0 := by simpa using hk
    subst hk0
    simp [List.findIdx_cons, hx]
  | cons a l ih =>
    cases k with
    | zero => simp [List.findIdx_cons, hx]
    | succ k =>
      rw [List.insertIdx_succ_cons, List.findIdx_cons, hl a (by simp), cond_false,
        ih k (by simpa using hk) (fun y hy => hl y (by simp [hy]))]

theorem set_insertIdx_self (l : List α) (k : Nat) (x y : α) :
    (l.insertIdx k x).set k y = l.insertIdx k y := by
  induction l generalizing k with
  | nil => cases k <;> rfl
  | cons a l ih =>
    cases k with
    | zero => rfl
    | succ k => rw [List.insertIdx_succ_cons, List.set_cons_succ, ih, List.insertIdx_succ_cons]

theorem insertIdx_append_left (before after : List α) (k : Nat) (x : α)
    (hk : k ≤ before.length) :
    (before ++ after).insertIdx k x = before.insertIdx k x ++ after := by
  induction before generalizing k with
  | nil =>
    have hk0 : k = 0 := by simpa using hk
    subst hk0
    rfl
  | cons a before ih =>
    cases k with
    | zero => rfl
    | succ k =>
      rw [List.cons_append, List.insertIdx_succ_cons, List.insertIdx_succ_cons, List.cons_append,
        ih k (by simpa using hk)]

theorem insertIdx_append_right (before after : List α) (k : Nat) (x : α) :
    (before ++ after).insertIdx (before.length + k) x = before ++ after.insertIdx k x := by
  induction before with
  | nil => simp
  | cons a before ih =>
    rw [List.length_cons, Nat.add_right_comm, List.cons_append, List.insertIdx_succ_cons, ih,
      List.cons_append]

theorem insertIdx_append_length (before after : List α) (x : α) :
    (before ++ after).insertIdx before.length x = before ++ x :: after := by
  rw [← List.insertIdx_zero, ← insertIdx_append_right, Nat.add_zero]

theorem insertIdx_length_sub_one {l : List α} (x : α) (h : l ≠ []) :
    l.insertIdx (l.length - 1) x = l.dropLast ++ x :: l.getLast?.toList := by
  have hlast : l = l.dropLast ++ [l.getLast h] := (List.dropLast_concat_getLast h).symm
  have hlength : l.length - 1 = l.dropLast.length := List.length_dropLast.symm
  rw [hlength, List.getLast?_eq_some_getLast h]
  conv_lhs => arg 1; rw [hlast]
  rw [insertIdx_append_length]
  rfl

/-- To insert an item before the first of its kind, or at the end if there is none. -/
theorem insertIdx_findIdx (p : α → Bool) (l : List α) (x : α) :
    l.insertIdx (l.findIdx p) x =
      l.takeWhile (fun y => !p y) ++ x :: l.dropWhile fun y => !p y := by
  induction l with
  | nil => rfl
  | cons a l ih =>
    rw [List.findIdx_cons, List.takeWhile_cons, List.dropWhile_cons]
    cases ha : p a with
    | true => rfl
    | false =>
      simp only [cond_false, Bool.not_false, if_true, List.cons_append]
      rw [List.insertIdx_succ_cons, ih]

theorem findIdx_le_iff (p : α → Bool) (l : List α) {k : Nat} (hk : k < l.length) :
    l.findIdx p ≤ k ↔ ∃ (j : Nat) (x : α), j ≤ k ∧ l[j]? = some x ∧ p x = true := by
  rw [← Nat.not_lt, List.lt_findIdx_iff]
  constructor
  · intro h
    by_contra hnone
    refine h ⟨hk, ?_⟩
    intro j hj
    have hget := List.getElem?_eq_getElem (l := l) (i := j) (by omega)
    exact Bool.eq_false_iff.mpr fun hp => hnone ⟨j, _, hj, hget, hp⟩
  · intro hh hall
    obtain ⟨j, x, hj, hget, hp⟩ := hh
    obtain ⟨_, hall⟩ := hall
    obtain ⟨_, rfl⟩ := List.getElem?_eq_some_iff.mp hget
    rw [hall j hj] at hp
    cases hp

theorem getLast?_insertIdx (l : List α) (k : Nat) (x : α) (hk : k ≤ l.length) :
    (l.insertIdx k x).getLast? = if k < l.length then l.getLast? else some x := by
  rw [List.getLast?_eq_getElem?, List.getLast?_eq_getElem?,
    List.length_insertIdx_of_le_length hk, Nat.add_sub_cancel, List.getElem?_insertIdx,
    if_neg (by omega)]
  by_cases hlt : k < l.length
  · rw [if_neg (by omega), if_pos hlt]
  · rw [if_pos (by omega), if_pos (by omega), if_neg hlt]

theorem exists_split_of_lt_length_flatMap {β : Type} (f : β → List α) (l : List β) {k : Nat}
    (h : k < (l.flatMap f).length) :
    ∃ before x after, l = before ++ x :: after ∧ (before.flatMap f).length ≤ k ∧
      k < (before.flatMap f).length + (f x).length := by
  induction l generalizing k with
  | nil => simp at h
  | cons a l ih =>
    by_cases hlt : k < (f a).length
    · exact ⟨[], a, l, rfl, Nat.zero_le _, by simpa using hlt⟩
    · rw [List.flatMap_cons, List.length_append] at h
      obtain ⟨before, x, after, hsplit, hstart, hstop⟩ := ih (k := k - (f a).length) (by omega)
      refine ⟨a :: before, x, after, by rw [hsplit, List.cons_append], ?_, ?_⟩
      · rw [List.flatMap_cons, List.length_append]
        omega
      · rw [List.flatMap_cons, List.length_append]
        omega

namespace Layout

theorem insert_eq_ok {layout : Layout} {position : Nat} (segment : Segment)
    (h : position ≤ layout.size) :
    layout.insert position segment = .ok {
      segments := layout.segments.insertIdx position segment
      spans := layout.spans.map <| Option.map fun span =>
        { span with header := shiftFrom position span.header }
      rules := layout.rules.map (shiftFrom position) } := by
  unfold insert
  rw [if_pos h]

end Layout

end VisualRules
