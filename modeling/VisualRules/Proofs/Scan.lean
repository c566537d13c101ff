import Mathlib.Order.Bounds.Basic
import VisualRules.Script.Layout

/-!
# The scan for a conditional branch

The scan looks at the rules in the order in which they were bound and narrows its range at each
conditional branch it finds. Whatever that order is, it ends at the lowest one of the range.
-/

namespace VisualRules

private theorem min?_cons_eq (first : Nat) (rest : List Nat) :
    (first :: rest).min? = (rest.filter (· < first)).min?.or (some first) := by
  cases h : (rest.filter (· < first)).min? with
  | none =>
    have hnil := List.min?_eq_none_iff.mp h
    rw [Option.none_or, List.min?_eq_some_iff]
    refine ⟨by simp, ?_⟩
    intro other hother
    rcases List.mem_cons.mp hother with rfl | hrest
    · exact Nat.le_refl _
    · have hnot := List.filter_eq_nil_iff.mp hnil other hrest
      simpa using hnot
  | some least =>
    obtain ⟨hmem, hleast⟩ := List.min?_eq_some_iff.mp h
    obtain ⟨hrest, hlt⟩ := List.mem_filter.mp hmem
    have hlt : least < first := by simpa using hlt
    rw [Option.some_or, List.min?_eq_some_iff]
    refine ⟨List.mem_cons_of_mem _ hrest, ?_⟩
    intro other hother
    rcases List.mem_cons.mp hother with rfl | hother
    · exact Nat.le_of_lt hlt
    · by_cases hbelow : other < first
      · exact hleast other (List.mem_filter.mpr ⟨hother, by simpa using hbelow⟩)
      · omega

private theorem min?_congr {xs ys : List Nat} (h : ∀ x, x ∈ xs ↔ x ∈ ys) : xs.min? = ys.min? := by
  apply Option.ext
  intro least
  rw [List.min?_eq_some_iff, List.min?_eq_some_iff]
  simp only [h]

namespace Layout

def opensAt (segments : List Segment) (position : Nat) : Bool :=
  segments[position]?.any Segment.opensCondition

/-- The positions of a list that lie in a range and hold a conditional branch. -/
def conditionals (segments : List Segment) (start stop : Nat) (positions : List Nat) : List Nat :=
  positions.filter fun position =>
    start ≤ position && position < stop && opensAt segments position

theorem mem_conditionals {segments : List Segment} {start stop position : Nat}
    {positions : List Nat} :
    position ∈ conditionals segments start stop positions ↔
      position ∈ positions ∧ start ≤ position ∧ position < stop ∧
        opensAt segments position = true := by
  simp [conditionals, and_assoc]

private theorem conditionals_filter_lt (segments : List Segment) (start stop bound : Nat)
    (positions : List Nat) (h : bound < stop) :
    (conditionals segments start stop positions).filter (· < bound) =
      conditionals segments start bound positions := by
  unfold conditionals
  rw [List.filter_filter]
  apply List.filter_congr
  intro position _
  by_cases hlt : position < bound
  · have hstop : position < stop := by omega
    simp [hlt, hstop]
  · simp [hlt]

/-- The invariant of the scan: it returns the least conditional branch that is still ahead in its
range, and what was found before if there is none. -/
theorem narrow_eq (segments : List Segment) (start stop : Nat) (found : Option Nat)
    (positions : List Nat) (h : ∀ position ∈ positions, position < segments.length) :
    narrow segments start stop found positions =
      .ok ((conditionals segments start stop positions).min?.or found) := by
  induction positions generalizing stop found with
  | nil => rfl
  | cons position rest ih =>
    have hrest : ∀ other ∈ rest, other < segments.length := fun other hother =>
      h other (List.mem_cons_of_mem _ hother)
    have hposition := h position List.mem_cons_self
    have hget := List.getElem?_eq_getElem hposition
    rw [narrow]
    by_cases hrange : start ≤ position ∧ position < stop
    · rw [if_pos hrange, hget]
      cases hopens : segments[position].opensCondition with
      | true =>
        have hcons : conditionals segments start stop (position :: rest) =
            position :: conditionals segments start stop rest := by
          simp [conditionals, opensAt, hrange.1, hrange.2, hget, hopens]
        simp only [hopens, if_true]
        rw [ih _ _ hrest, hcons, min?_cons_eq, conditionals_filter_lt _ _ _ _ _ hrange.2,
          Option.or_assoc, Option.some_or]
      | false =>
        have hcons : conditionals segments start stop (position :: rest) =
            conditionals segments start stop rest := by
          simp [conditionals, opensAt, hget, hopens]
        simp only [hopens, Bool.false_eq_true, if_false]
        rw [ih _ _ hrest, hcons]
    · have hcons : conditionals segments start stop (position :: rest) =
          conditionals segments start stop rest := by
        unfold conditionals
        rw [List.filter_cons_of_neg]
        simpa [← and_assoc] using fun hstart hstop => absurd ⟨hstart, hstop⟩ hrange
      rw [if_neg hrange, ih _ _ hrest, hcons]

theorem firstConditional_eq_min? (layout : Layout) (start stop : Nat)
    (h : ∀ position ∈ layout.rules, position < layout.size) :
    layout.firstConditional start stop =
      .ok (conditionals layout.segments start stop layout.rules).min? := by
  rw [firstConditional, narrow_eq _ _ _ _ _ h, Option.or_none]

/-- A rule is bound to the position, the range has it, and a conditional branch stands there. -/
def TestsIn (layout : Layout) (start stop position : Nat) : Prop :=
  position ∈ layout.rules ∧ start ≤ position ∧ position < stop ∧
    opensAt layout.segments position = true

/-- What the scan answers for a range: the first position with a conditional rule, if there is
one. -/
structure ScanAnswers (layout : Layout) (start stop : Nat) (answer : Option Nat) : Prop where
  eq_ok : layout.firstConditional start stop = .ok answer
  isLeast_iff : ∀ position,
    answer = some position ↔ IsLeast {candidate | layout.TestsIn start stop candidate} position
  none_iff : answer = none ↔ ∀ position, ¬layout.TestsIn start stop position

section Answers

variable {layout other : Layout} {start stop : Nat}

private theorem scanAnswers_min? (h : ∀ position ∈ layout.rules, position < layout.size) :
    layout.ScanAnswers start stop (conditionals layout.segments start stop layout.rules).min? where
  eq_ok := firstConditional_eq_min? layout start stop h
  isLeast_iff := by
    intro position
    rw [List.min?_eq_some_iff, IsLeast, mem_lowerBounds]
    simp only [mem_conditionals]
    rfl
  none_iff := by
    rw [List.min?_eq_none_iff, List.eq_nil_iff_forall_not_mem]
    simp only [mem_conditionals]
    rfl

/-- Two layouts with the same conditional rules in the range get the same answer. -/
theorem firstConditional_congr (h : ∀ position ∈ layout.rules, position < layout.size)
    (hother : ∀ position ∈ other.rules, position < other.size)
    (hsame : ∀ position, other.TestsIn start stop position ↔ layout.TestsIn start stop position) :
    other.firstConditional start stop = layout.firstConditional start stop := by
  rw [firstConditional_eq_min? _ _ _ h, firstConditional_eq_min? _ _ _ hother]
  congr 1
  apply min?_congr
  intro position
  rw [mem_conditionals, mem_conditionals]
  exact hsame position

/-- The scan finds the first conditional rule of the range. The answer is the same for every order
in which the rules were bound, and for every other layout with the same conditional rules in the
range: no segment counts that is unconditional or that no rule is bound to. -/
theorem firstConditional_finds_least (layout : Layout) (start stop : Nat)
    (h : ∀ position ∈ layout.rules, position < layout.size) :
    ∃ answer, layout.ScanAnswers start stop answer ∧
      (∀ rules, rules.Perm layout.rules →
        firstConditional { layout with rules := rules } start stop = .ok answer) ∧
      ∀ other : Layout, (∀ position ∈ other.rules, position < other.size) →
        (∀ position, other.TestsIn start stop position ↔ layout.TestsIn start stop position) →
        other.firstConditional start stop = .ok answer := by
  have hanswers : layout.ScanAnswers start stop _ := scanAnswers_min? h
  refine ⟨_, hanswers, ?_, ?_⟩
  · intro rules hperm
    rw [← hanswers.eq_ok]
    apply firstConditional_congr h
    · exact fun position hposition => h position (hperm.mem_iff.mp hposition)
    · exact fun position => and_congr_left' hperm.mem_iff
  · intro other hother hsame
    rw [← hanswers.eq_ok]
    exact firstConditional_congr h hother hsame

/-- The first conditional branch is nobody's, the second one belongs to two rules, and the rules
were bound from the last to the first. -/
def sharedBranch : Layout where
  segments := [.header .tap, ⟨.branch true, "\tif a then\n"⟩, ⟨.branch false, "\tb\n"⟩,
    ⟨.branch true, "\tif c then\n"⟩, ⟨.branch true, "\tif d then\n"⟩]
  spans := .replicate none
  rules := [4, 3, 2, 3]

theorem firstConditional_of_sharedBranch :
    (∀ position ∈ sharedBranch.rules, position < sharedBranch.size) ∧
      ∃ answer, sharedBranch.ScanAnswers 0 9 answer ∧
        (∀ rules, rules.Perm sharedBranch.rules →
          firstConditional { sharedBranch with rules := rules } 0 9 = .ok answer) ∧
        ∀ other : Layout, (∀ position ∈ other.rules, position < other.size) →
          (∀ position, other.TestsIn 0 9 position ↔ sharedBranch.TestsIn 0 9 position) →
          other.firstConditional 0 9 = .ok answer := by
  have hbound : ∀ position ∈ sharedBranch.rules, position < sharedBranch.size := by decide
  exact ⟨hbound, firstConditional_finds_least sharedBranch 0 9 hbound⟩

end Answers

/-- The third segment is the first one that counts, and an empty range has none. -/
example : sharedBranch.firstConditional 0 9 = .ok (some 3) ∧
    sharedBranch.firstConditional 4 3 = .ok none := by decide

end Layout

end VisualRules
