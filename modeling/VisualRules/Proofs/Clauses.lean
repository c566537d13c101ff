import Mathlib.Data.List.Basic
import VisualRules.Script.Branch

/-!
# The clauses of a test

Nothing comes of a card exactly if all of its settings are neutral. So the test of an event card can
be continued by the clauses of a filter card, and the test of a rule is one list of clauses.
-/

namespace VisualRules

namespace Clause

private theorem testOf_cons (clause : Clause) (rest : List Clause) :
    testOf (clause :: rest) =
      clause.text ++ String.join (rest.map fun clause => " and " ++ clause.text) := by
  induction rest generalizing clause with
  | nil => rw [List.map_nil, String.join_nil, String.append_empty]; rfl
  | cons next rest ih =>
    have hcons :
        testOf (clause :: next :: rest) = clause.text ++ " and " ++ testOf (next :: rest) :=
      String.intercalate_cons_of_ne_nil (List.cons_ne_nil _ _)
    rw [hcons, ih, List.map_cons, String.join_cons]
    simp only [String.append_assoc]

private theorem testOf_append {clauses : List Clause} (hne : clauses ≠ []) (others : List Clause) :
    testOf (clauses ++ others) =
      testOf clauses ++ String.join (others.map fun clause => " and " ++ clause.text) := by
  obtain ⟨clause, rest, rfl⟩ := List.exists_cons_of_ne_nil hne
  rw [List.cons_append, testOf_cons, testOf_cons, List.map_append, String.join_append,
    String.append_assoc]

end Clause

theorem filterMap_zipIdx_eq_nil_iff {α β : Type} [DecidableEq α] {f : α × Nat → Option β}
    {neutral : α} {xs : List α} (h : ∀ x index, f (x, index) = none ↔ x = neutral) :
    xs.zipIdx.filterMap f = [] ↔ xs.any (· ≠ neutral) = false := by
  rw [List.filterMap_eq_nil_iff, List.any_eq_false]
  simp only [decide_eq_true_eq, not_not]
  constructor
  · intro hnone x hx
    obtain ⟨index, hindex, rfl⟩ := List.mem_iff_getElem.mp hx
    have hmem := List.mk_mem_zipIdx_iff_getElem?.mpr (List.getElem?_eq_getElem hindex)
    exact (h _ index).mp (hnone _ hmem)
  · rintro hall ⟨x, index⟩ hx
    exact (h x index).mpr (hall x (List.fst_mem_of_mem_zipIdx hx))

private theorem SensorBand.clauses_eq_nil_iff {n : Nat} (band : SensorBand n)
    (ofSensor : Nat → Variable) :
    band.clauses ofSensor = [] ↔ band.isSet = false := by
  apply filterMap_zipIdx_eq_nil_iff
  intro test sensor
  cases test with
  | any => exact iff_of_true rfl rfl
  | below => exact iff_of_false nofun nofun
  | above => exact iff_of_false nofun nofun

private theorem tiltClauses_ne_nil (target : Int32) : tiltClauses target ≠ [] := by
  unfold tiltClauses
  by_cases hlow : target = -tiltResolution
  · rw [hlow]
    decide
  · simp [hlow]

theorem Event.clauses_eq_nil_iff (event : Event) : event.clauses = [] ↔ event.isSet = false := by
  cases event with
  | buttons pressed =>
    have hpressed : (Button.all.zip pressed.toList).map Prod.snd = pressed.toList :=
      List.map_snd_zip (by simp [Button.all])
    rw [clauses, List.map_eq_nil_iff, List.filter_eq_nil_iff, isSet, List.any_eq_false]
    conv_rhs => rw [← hpressed, List.forall_mem_map]
    rfl
  | proximity band => exact band.clauses_eq_nil_iff .horizontal
  | groundProximity band => exact band.clauses_eq_nil_iff .ground
  | tap | clap | timeout => exact iff_of_true rfl rfl
  | tilt mode angle =>
    cases mode with
    | tap => exact iff_of_true rfl rfl
    | roll => exact iff_of_false (tiltClauses_ne_nil _) nofun
    | pitch => exact iff_of_false (tiltClauses_ne_nil _) nofun

theorem Event.clauses_ne_nil {event : Event} (h : event.isSet = true) : event.clauses ≠ [] := by
  rw [Ne, event.clauses_eq_nil_iff, h]
  decide

theorem StateFilter.clauses_eq_nil_iff (filter : StateFilter) :
    filter.clauses = [] ↔ filter.isSet = false := by
  apply filterMap_zipIdx_eq_nil_iff
  intro slot index
  cases slot with
  | any => exact iff_of_true rfl rfl
  | on => exact iff_of_false nofun nofun
  | off => exact iff_of_false nofun nofun

theorem StateFilter.clauses_ne_nil {filter : StateFilter} (h : filter.isSet = true) :
    filter.clauses ≠ [] := by
  rw [Ne, filter.clauses_eq_nil_iff, h]
  decide

theorem StateFilter.conjunction_eq (filter : StateFilter) :
    filter.conjunction = if filter.isSet then " and " ++ filter.test else "" := by
  have hiff := filter.clauses_eq_nil_iff
  rw [conjunction, test]
  cases hclauses : filter.clauses with
  | nil =>
    rw [hiff.mp hclauses, if_neg Bool.false_ne_true]
    rfl
  | cons clause rest =>
    have hset : filter.isSet = true := by
      rw [← Bool.not_eq_false, ← hiff, hclauses]
      exact List.cons_ne_nil _ _
    rw [hset, if_pos rfl, Clause.testOf_cons, List.map_cons, String.join_cons, String.append_assoc]

/-- The test of an event card with a filter is the test of the event followed by what the filter
adds to it. -/
theorem Event.testOf_append_filter {event : Event} (h : event.isSet = true) (filter : StateFilter) :
    Clause.testOf (event.clauses ++ filter.clauses) = event.test ++ filter.conjunction := by
  rw [Clause.testOf_append (clauses_ne_nil h), Event.test, StateFilter.conjunction]

namespace Reaction

variable {reaction : Reaction}

/-- What the rule tests: the readings that its event asks for, then the state bits that its filter
asks for. -/
def condition? (reaction : Reaction) : Option (List Clause) :=
  if reaction.event.isSet then
    some (reaction.event.clauses ++ reaction.stateFilter.elim [] StateFilter.clauses)
  else (reaction.stateFilter.filter StateFilter.isSet).map StateFilter.clauses

theorem test?_eq (reaction : Reaction) :
    reaction.test? = reaction.condition?.map Clause.testOf := by
  rw [test?, condition?]
  by_cases hset : reaction.event.isSet = true
  · rw [if_pos hset, if_pos hset, Option.map_some]
    cases reaction.stateFilter with
    | none => rw [Option.elim_none, Option.elim_none, String.append_empty, List.append_nil]; rfl
    | some filter => rw [Option.elim_some, Option.elim_some, Event.testOf_append_filter hset]
  · rw [if_neg hset, if_neg hset, Option.map_map]
    rfl

theorem clauses_ne_nil {clauses : List Clause} (h : reaction.condition? = some clauses) :
    clauses ≠ [] := by
  rw [condition?] at h
  split at h
  · next hset =>
    cases h
    exact List.append_ne_nil_of_left_ne_nil (Event.clauses_ne_nil hset) _
  · obtain ⟨filter, hfilter, rfl⟩ := Option.map_eq_some_iff.mp h
    exact StateFilter.clauses_ne_nil (Option.filter_eq_some_iff.mp hfilter).2

end Reaction

end VisualRules
