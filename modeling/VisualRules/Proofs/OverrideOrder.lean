import VisualRules.Proofs.StateCommit

/-!
# Which rules change places

A rule joins its handler somewhere in it, and from then on it keeps its order with the rules that
are there, whatever is added. So the slot that it joins at decides which earlier rules it precedes.
-/

namespace VisualRules

def Script.Precedes (script : Script) (one other : Nat) : Prop :=
  ∃ position position', script.rulePositions[one]? = some position ∧
    script.rulePositions[other]? = some position' ∧ position < position'

def PrecedesIn (passages : List Passage) (one other : Passage) : Prop :=
  (outline passages).findIdx (Piece.isRule one.number) <
    (outline passages).findIdx (Piece.isRule other.number)

namespace Chapter

variable {entries : List Entry} {passages : List Passage} {passage other : Passage} {index : Nat}

/-- A basic rule goes before an entry if some test stands there or before it. -/
theorem slot_le_iff_of_basic (hbasic : passage.reaction.isAdvanced = false)
    (hindex : index < entries.length) :
    slot entries passage ≤ index ↔
      passage.reaction.event.isSet = false ∧ ∃ (test : Nat) (entry : Entry),
        test ≤ index ∧ entries[test]? = some entry ∧ entry.isConditional = true := by
  rw [slot, hbasic, if_neg (by decide)]
  cases hset : passage.reaction.event.isSet with
  | true =>
    rw [if_pos rfl]
    simp only [Bool.true_eq_false, false_and, iff_false]
    omega
  | false =>
    rw [if_neg (by decide), findIdx_le_iff _ _ hindex]
    simp only [true_and]

/-- An advanced rule goes behind every rule while the snapshot closes the handler. -/
theorem lt_slot_of_advanced (hadvanced : passage.reaction.isAdvanced = true)
    (hnever : NeverTrails (passages.map Passage.reaction))
    (hentry : (ofPassages passages)[index]? = some (.rule other)) :
    index < slot (ofPassages passages) passage := by
  have hmem := rule_mem_ofPassages.mp (List.mem_of_getElem? hentry)
  have hlast := (getLast?_ofPassages (List.ne_nil_of_mem hmem)).mpr hnever
  rw [List.getLast?_eq_getElem?] at hlast
  obtain ⟨hlt, _⟩ := List.getElem?_eq_some_iff.mp hentry
  have hne : index ≠ (ofPassages passages).length - 1 := by
    intro heq
    rw [heq, hlast] at hentry
    cases hentry
  rw [slot, if_pos hadvanced]
  omega

end Chapter

section Outline

variable {passages : List Passage} {passage one other : Passage}

/-- One more rule moves the others, but none past another. -/
theorem exists_findIdx_outline_push (h : passage.number ∉ passages.map Passage.number) :
    ∃ start, ∀ other ∈ passages,
      (outline (passages ++ [passage])).findIdx (Piece.isRule other.number) =
        shiftFrom start ((outline passages).findIdx (Piece.isRule other.number)) := by
  by_cases hmem : passage.handler ∈ handlersOf (passages.map Passage.reaction)
  · obtain ⟨before, after, hsplit⟩ := List.append_of_mem hmem
    refine ⟨(blocksOf before passages).length + 1 +
      Chapter.slot (entriesOf passage.handler passages) passage, fun other hother => ?_⟩
    have hne : passage.number ≠ other.number := fun heq =>
      h (heq ▸ List.mem_map_of_mem hother)
    rw [outline_push_of_split hsplit]
    exact findIdx_insertIdx _ _ _ _ (slot_le_length_outline hsplit) (by simp [Piece.isRule, hne])
  · refine ⟨(outline passages).length, fun other hother => ?_⟩
    have hfound : (outline passages).findIdx (Piece.isRule other.number) <
        (outline passages).length :=
      List.findIdx_lt_length_of_exists
        ⟨_, ofPassage_mem_outline hother, by simp [Piece.isRule]⟩
    rw [outline_push_of_not_mem hmem, List.findIdx_append, if_pos hfound, shiftFrom,
      if_neg (by omega)]

private theorem precedesIn_append {later : List Passage}
    (h : ((passages ++ later).map Passage.number).Nodup) (hone : one ∈ passages)
    (hother : other ∈ passages) :
    PrecedesIn (passages ++ later) one other ↔ PrecedesIn passages one other := by
  induction later using List.reverseRecOn with
  | nil => rw [List.append_nil]
  | append_singleton later passage ih =>
    rw [← List.append_assoc] at h
    obtain ⟨hnumber, hnodup⟩ := nodup_numbers_push.mp h
    obtain ⟨start, hstart⟩ := exists_findIdx_outline_push hnumber
    rw [← ih hnodup, ← List.append_assoc, PrecedesIn, hstart one (List.mem_append_left _ hone),
      hstart other (List.mem_append_left _ hother), shiftFrom_lt_shiftFrom_iff]
    rfl

private theorem precedesIn_iff_of_entries (h : (passages.map Passage.number).Nodup)
    {handler : Handler}
    {index index' : Nat} (hone : (entriesOf handler passages)[index]? = some (.rule one))
    (hother : (entriesOf handler passages)[index']? = some (.rule other)) :
    PrecedesIn passages one other ↔ index < index' := by
  obtain ⟨before, after, hsplit⟩ := exists_split_of_entry hone
  rw [PrecedesIn, findIdx_isRule_of_split h hsplit hone, findIdx_isRule_of_split h hsplit hother,
    Nat.add_lt_add_iff_left]

private theorem exists_findIdx_push (h : ((passages ++ [passage]).map Passage.number).Nodup)
    {index : Nat} (hentry : (entriesOf passage.handler passages)[index]? = some (.rule other)) :
    ∃ start,
      (outline (passages ++ [passage])).findIdx (Piece.isRule passage.number) =
        start + Chapter.slot (entriesOf passage.handler passages) passage ∧
      (outline (passages ++ [passage])).findIdx (Piece.isRule other.number) =
        shiftFrom (start + Chapter.slot (entriesOf passage.handler passages) passage)
          (start + index) := by
  obtain ⟨hnumber, hnodup⟩ := nodup_numbers_push.mp h
  have hmem := rule_mem_entriesOf.mp (List.mem_of_getElem? hentry)
  have hne : passage.number ≠ other.number := fun heq =>
    hnumber (heq ▸ List.mem_map_of_mem hmem.1)
  obtain ⟨before, after, hsplit⟩ := exists_split_of_entry hentry
  have hslot := slot_le_length_outline hsplit
  refine ⟨(blocksOf before passages).length + 1, ?_, ?_⟩
  · rw [outline_push_of_split hsplit]
    exact findIdx_insertIdx_self _ _ _ _ hslot (by simp [Piece.isRule])
      (isRule_eq_false_of_not_mem hnumber)
  · rw [outline_push_of_split hsplit,
      findIdx_insertIdx _ _ _ _ hslot (by simp [Piece.isRule, hne]),
      findIdx_isRule_of_split hnodup hsplit hentry]

private theorem precedesIn_push_iff (h : ((passages ++ [passage]).map Passage.number).Nodup)
    {index : Nat} (hentry : (entriesOf passage.handler passages)[index]? = some (.rule other)) :
    PrecedesIn (passages ++ [passage]) passage other ↔
      Chapter.slot (entriesOf passage.handler passages) passage ≤ index := by
  obtain ⟨start, hself, hother⟩ := exists_findIdx_push h hentry
  rw [PrecedesIn, hself, hother, lt_shiftFrom_iff, Nat.add_le_add_iff_left]

private theorem push_precedesIn_iff (h : ((passages ++ [passage]).map Passage.number).Nodup)
    {index : Nat} (hentry : (entriesOf passage.handler passages)[index]? = some (.rule other)) :
    PrecedesIn (passages ++ [passage]) other passage ↔
      index < Chapter.slot (entriesOf passage.handler passages) passage := by
  obtain ⟨start, hself, hother⟩ := exists_findIdx_push h hentry
  rw [PrecedesIn, hself, hother, shiftFrom_lt_iff, Nat.add_lt_add_iff_left]

private theorem precedesIn_push_iff_of_basic
    (h : ((passages ++ [passage]).map Passage.number).Nodup)
    (hbasic : passage.reaction.isAdvanced = false) (hother : other ∈ passages)
    (hhandler : other.handler = passage.handler) :
    PrecedesIn (passages ++ [passage]) passage other ↔
      passage.reaction.event.isSet = false ∧ ∃ test ∈ passages,
        test.handler = passage.handler ∧ test.branch.conditional = true ∧
          (test = other ∨ PrecedesIn passages test other) := by
  have hnodup := (nodup_numbers_push.mp h).2
  obtain ⟨index, hentry⟩ :=
    List.mem_iff_getElem?.mp (rule_mem_entriesOf.mpr ⟨hother, hhandler⟩)
  obtain ⟨hlt, _⟩ := List.getElem?_eq_some_iff.mp hentry
  rw [precedesIn_push_iff h hentry, Chapter.slot_le_iff_of_basic hbasic hlt]
  refine and_congr_right fun _ => ?_
  constructor
  · intro hh
    obtain ⟨first, entry, hle, hfirst, hconditional⟩ := hh
    cases entry with
    | stateSync => simp at hconditional
    | rule test =>
      obtain ⟨htest, htested⟩ := rule_mem_entriesOf.mp (List.mem_of_getElem? hfirst)
      refine ⟨test, htest, htested, hconditional, ?_⟩
      by_cases heq : first = index
      · rw [heq, hentry] at hfirst
        cases hfirst
        exact .inl rfl
      · exact .inr ((precedesIn_iff_of_entries hnodup hfirst hentry).mpr (by omega))
  · intro hh
    obtain ⟨test, htest, htested, hconditional, horder⟩ := hh
    rcases horder with rfl | horder
    · exact ⟨index, _, Nat.le_refl _, hentry, hconditional⟩
    · obtain ⟨first, hfirst⟩ :=
        List.mem_iff_getElem?.mp (rule_mem_entriesOf.mpr ⟨htest, htested⟩)
      have hbefore := (precedesIn_iff_of_entries hnodup hfirst hentry).mp horder
      exact ⟨first, _, Nat.le_of_lt hbefore, hfirst, hconditional⟩

private theorem push_precedesIn_of_advanced (h : ((passages ++ [passage]).map Passage.number).Nodup)
    (hadvanced : passage.reaction.isAdvanced = true)
    (hnever : NeverTrails ((ofHandler passage.handler passages).map Passage.reaction))
    (hother : other ∈ passages) (hhandler : other.handler = passage.handler) :
    PrecedesIn (passages ++ [passage]) other passage := by
  obtain ⟨index, hentry⟩ :=
    List.mem_iff_getElem?.mp (rule_mem_entriesOf.mpr ⟨hother, hhandler⟩)
  exact (push_precedesIn_iff h hentry).mpr
    (Chapter.lt_slot_of_advanced hadvanced hnever hentry)

private theorem precedesIn_take_iff (h : (passages.map Passage.number).Nodup) (count : Nat)
    (hone : one ∈ passages.take count) (hother : other ∈ passages.take count) :
    PrecedesIn passages one other ↔ PrecedesIn (passages.take count) one other := by
  have happend := List.take_append_drop count passages
  rw [← precedesIn_append (by rw [happend]; exact h) hone hother, happend]

end Outline

/-- Two rules of one handler, the first of them further up in the program. -/
structure Follows (reactions : List Reaction) (earlier later : Nat) (one other : Reaction) :
    Prop where
  lt : earlier < later
  earlier_eq : reactions[earlier]? = some one
  later_eq : reactions[later]? = some other
  handler_eq : one.handler = other.handler

def Reaction.Tests (reaction : Reaction) : Prop :=
  ∃ branch, reaction.branch = .ok branch ∧ branch.conditional = true

/-- A later rule precedes an earlier one exactly if it is basic and tests nothing and the earlier
one does. -/
def OverridesOnly (reactions : List Reaction) (script : Script) : Prop :=
  ∀ (earlier later : Nat) (one other : Reaction), Follows reactions earlier later one other →
    (script.Precedes later earlier ↔ other.isAdvanced = false ∧ ¬other.Tests ∧ one.Tests)

/-- A basic rule whose event asks for nothing, whatever its state filter, precedes the tests that
are there and everything behind the first of them. An advanced rule precedes nothing in a handler
that ends with its snapshot. -/
structure OverrideOrder (reactions : List Reaction) (script : Script) : Prop where
  basic : ∀ (earlier later : Nat) (one other : Reaction),
    Follows reactions earlier later one other → other.isAdvanced = false →
      (script.Precedes later earlier ↔ other.event.isSet = false ∧
        ∃ (test : Nat) (tested : Reaction), Follows reactions test later tested other ∧
          tested.Tests ∧ (test = earlier ∨ script.Precedes test earlier))
  advanced : ∀ (earlier later : Nat) (one other : Reaction),
    Follows reactions earlier later one other → other.isAdvanced = true →
      NeverTrails ((reactions.take later).filter fun reaction =>
        reaction.handler = other.handler) →
      script.Precedes earlier later

private theorem Passage.tests_iff (passage : Passage) :
    passage.reaction.Tests ↔ passage.branch.conditional = true := by
  constructor
  · intro hh
    obtain ⟨branch, hbranch, hconditional⟩ := hh
    rw [passage.written, Except.ok.injEq] at hbranch
    rw [hbranch]
    exact hconditional
  · intro hconditional
    exact ⟨passage.branch, passage.written, hconditional⟩

section Script

variable {assembly : Assembly} {passages : List Passage} {earlier later : Nat}

private theorem precedes_iff_precedesIn (h : assembly.layout.Realizes passages)
    (advancedMode : Bool) {one other : Passage} (hone : passages[earlier]? = some one)
    (hother : passages[later]? = some other) :
    (assembly.script advancedMode).Precedes earlier later ↔ PrecedesIn passages one other := by
  have hposition := h.getElem?_rules hone
  have hposition' := h.getElem?_rules hother
  constructor
  · intro hh
    obtain ⟨position, position', hget, hget', hlt⟩ := hh
    change assembly.layout.rules[earlier]? = some position at hget
    change assembly.layout.rules[later]? = some position' at hget'
    rw [hposition, Option.some.injEq] at hget
    rw [hposition', Option.some.injEq] at hget'
    rw [PrecedesIn, hget, hget']
    exact hlt
  · intro hlt
    exact ⟨_, _, hposition, hposition', hlt⟩

private theorem Transcribes.exists_of_follows {reactions : List Reaction} {one other : Reaction}
    (h : Transcribes passages reactions) (hfollows : Follows reactions earlier later one other) :
    ∃ passage passage', passages[earlier]? = some passage ∧ passages[later]? = some passage' ∧
      passage.reaction = one ∧ passage'.reaction = other ∧ passage ∈ passages.take later ∧
      passage.handler = passage'.handler ∧
      passages.take (later + 1) = passages.take later ++ [passage'] := by
  obtain ⟨passage, hpassage, rfl⟩ := h.exists_of_getElem? hfollows.earlier_eq
  obtain ⟨passage', hpassage', rfl⟩ := h.exists_of_getElem? hfollows.later_eq
  refine ⟨passage, passage', hpassage, hpassage', rfl, rfl, ?_, hfollows.handler_eq, ?_⟩
  · have htake : (passages.take later)[earlier]? = some passage := by
      rw [List.getElem?_take_of_lt hfollows.lt, hpassage]
    exact List.mem_of_getElem? htake
  · rw [List.take_add_one, hpassage']
    rfl

private theorem mem_take_iff {count : Nat} {passage : Passage} :
    passage ∈ passages.take count ↔
      ∃ index, index < count ∧ passages[index]? = some passage := by
  rw [List.mem_iff_getElem?]
  constructor
  · intro hh
    obtain ⟨index, hget⟩ := hh
    rw [List.getElem?_take] at hget
    split at hget
    · next hlt => exact ⟨index, hlt, hget⟩
    · cases hget
  · intro hh
    obtain ⟨index, hlt, hget⟩ := hh
    exact ⟨index, by rw [List.getElem?_take_of_lt hlt, hget]⟩

private theorem exists_test_iff {reactions : List Reaction} (h : assembly.layout.Realizes passages)
    (hpassages : Transcribes passages reactions) (advancedMode : Bool) {passage passage' : Passage}
    (hpassage : passages[earlier]? = some passage) (hmem : passage ∈ passages.take later)
    (hpassage' : passages[later]? = some passage') :
    (∃ test ∈ passages.take later, test.handler = passage'.handler ∧
        test.branch.conditional = true ∧
          (test = passage ∨ PrecedesIn (passages.take later) test passage)) ↔
      ∃ (test : Nat) (tested : Reaction), Follows reactions test later tested passage'.reaction ∧
        tested.Tests ∧
          (test = earlier ∨ (assembly.script advancedMode).Precedes test earlier) := by
  constructor
  · intro hh
    obtain ⟨test, htest, hhandler, hconditional, horder⟩ := hh
    obtain ⟨index, hlt, hget⟩ := mem_take_iff.mp htest
    refine ⟨index, test.reaction, ⟨hlt, hpassages.getElem?_reactions hget,
      hpassages.getElem?_reactions hpassage', hhandler⟩, test.tests_iff.mpr hconditional, ?_⟩
    rcases horder with rfl | horder
    · left
      rw [← hpassages.number_of_getElem? hget, ← hpassages.number_of_getElem? hpassage]
    · right
      rw [precedes_iff_precedesIn h _ hget hpassage]
      exact (precedesIn_take_iff hpassages.nodup _ htest hmem).mpr horder
  · intro hh
    obtain ⟨index, tested, hfollows, htests, horder⟩ := hh
    obtain ⟨test, hget, rfl⟩ := hpassages.exists_of_getElem? hfollows.earlier_eq
    have htest : test ∈ passages.take later := mem_take_iff.mpr ⟨index, hfollows.lt, hget⟩
    refine ⟨test, htest, hfollows.handler_eq, test.tests_iff.mp htests, ?_⟩
    rcases horder with rfl | horder
    · left
      rw [hpassage, Option.some.injEq] at hget
      exact hget.symm
    · right
      rw [precedes_iff_precedesIn h _ hget hpassage] at horder
      exact (precedesIn_take_iff hpassages.nodup _ htest hmem).mp horder

private theorem overrideOrder_of_realizes {reactions : List Reaction}
    (h : assembly.layout.Realizes passages) (hpassages : Transcribes passages reactions)
    (advancedMode : Bool) : OverrideOrder reactions (assembly.script advancedMode) := by
  -- Later rules do not change the order of two rules, so the later one is taken to be the last.
  have hnodup := hpassages.nodup
  have hpush {count : Nat} {passage : Passage}
      (htake : passages.take (count + 1) = passages.take count ++ [passage]) :
      ((passages.take count ++ [passage]).map Passage.number).Nodup := by
    rw [← htake]
    exact hnodup.sublist ((List.take_sublist _ _).map _)
  constructor
  case basic =>
    intro earlier later one other hfollows hbasic
    obtain ⟨passage, passage', hpassage, hpassage', rfl, rfl, hmem, hhandler, htake⟩ :=
      hpassages.exists_of_follows hfollows
    rw [precedes_iff_precedesIn h _ hpassage' hpassage,
      precedesIn_take_iff hnodup (later + 1) (by simp [htake]) (by simp [htake, hmem]),
      htake, precedesIn_push_iff_of_basic (hpush htake) hbasic hmem hhandler,
      exists_test_iff h hpassages advancedMode hpassage hmem hpassage']
  case advanced =>
    intro earlier later one other hfollows hadvanced hnever
    obtain ⟨passage, passage', hpassage, hpassage', rfl, rfl, hmem, hhandler, htake⟩ :=
      hpassages.exists_of_follows hfollows
    rw [← hpassages.reactions_eq, ← List.map_take, ← map_reaction_ofHandler] at hnever
    rw [precedes_iff_precedesIn h _ hpassage hpassage',
      precedesIn_take_iff hnodup (later + 1) (by simp [htake, hmem]) (by simp [htake]), htake]
    exact push_precedesIn_of_advanced (hpush htake) hadvanced hnever hmem hhandler

end Script

namespace Program

/-- In every handler exactly the overrides and what stands behind them change places. -/
theorem overrideOrder_of_compile {program : Program} {script : Script}
    (h : program.compile = .ok script) :
    ∃ reactions, program.reactions = .ok reactions ∧ OverrideOrder reactions script := by
  obtain ⟨passages, assembly, hread, hpassages, _, hlayout, rfl⟩ := exists_of_compile h
  exact ⟨_, hread, overrideOrder_of_realizes hlayout hpassages program.advancedMode⟩

/-- The third rule goes before both advanced rules although the second one tests nothing, and the
fourth goes before the first although it tests something itself. -/
def mixedHandler : Program where
  rules := [
    ((Rule.ofEvent (.ofKind .buttons [1, 0, 0, 0, 0])).withAction
      (.ofKind .setState [1, 0, 0, 0])).withAdvanced true,
    ((Rule.ofEvent (.ofKind .buttons [0, 0, 0, 0, 0])).withAction
      (.ofKind .topColor [32, 0, 0])).withAdvanced true,
    (Rule.ofEvent (.ofKind .buttons [0, 0, 0, 0, 0])).withAction (.ofKind .topColor [0, 0, 0]),
    (((Rule.ofEvent (.ofKind .buttons [0, 0, 0, 0, 0])).withStateFilter
      (.ofKind .stateFilter [1, 0, 0, 0])).withAction (.ofKind .topColor [0, 32, 0])).withAdvanced
      false]
  advancedMode := true

def mixedHandlerScript : Script where
  segments := [
    Line.textOf (preamble true .empty) ++ (Segment.header .buttons).text,
    "\tcall leds.top(0,0,0)\n",
    "\tif state[0] == 1 then\n\t\tcall leds.top(0,32,0)\n\tend\n",
    "\tif button.forward == 1 then\n\t\tnew_state[0] = 1\n\tend\n",
    "\tcall leds.top(32,0,0)\n",
    Segment.stateSync.text]
  rulePositions := [3, 4, 1, 2]
  features := .empty

theorem overrideOrder_of_mixedHandler :
    mixedHandler.compile = .ok mixedHandlerScript ∧
      ∃ reactions, mixedHandler.reactions = .ok reactions ∧
        OverrideOrder reactions mixedHandlerScript :=
  ⟨by decide +kernel, overrideOrder_of_compile (by decide +kernel)⟩

/-- The event of the second rule asks for nothing but its state filter does. -/
def filteredDefault : Program where
  rules := [
    (Rule.ofEvent (.ofKind .buttons [1, 0, 0, 0, 0])).withAction (.ofKind .topColor [32, 0, 0]),
    (((Rule.ofEvent (.ofKind .buttons [0, 0, 0, 0, 0])).withStateFilter
      (.ofKind .stateFilter [1, 0, 0, 0])).withAction (.ofKind .topColor [0, 32, 0])).withAdvanced
      false]
  advancedMode := true

def filteredDefaultScript : Script where
  segments := [
    Line.textOf (preamble true .empty) ++ (Segment.header .buttons).text,
    "\tif state[0] == 1 then\n\t\tcall leds.top(0,32,0)\n\tend\n",
    "\tif button.forward == 1 then\n\t\tcall leds.top(32,0,0)\n\tend\n"]
  rulePositions := [2, 1]
  features := .empty

theorem not_overridesOnly_of_filteredDefault :
    filteredDefault.compile = .ok filteredDefaultScript ∧
      ∃ reactions, filteredDefault.reactions = .ok reactions ∧
        ¬OverridesOnly reactions filteredDefaultScript := by
  have hread : filteredDefault.reactions = .ok [
      ⟨.buttons #v[true, false, false, false, false], none, [.topColor ⟨32, 0, 0⟩], false⟩,
      ⟨.buttons #v[false, false, false, false, false], some ⟨#v[.on, .any, .any, .any]⟩,
        [.topColor ⟨0, 32, 0⟩], false⟩] := by decide +kernel
  refine ⟨by decide +kernel, _, hread, ?_⟩
  intro honly
  have horder := honly 0 1 _ _ ⟨by decide, rfl, rfl, rfl⟩
  obtain ⟨_, hnot, _⟩ := horder.mp ⟨1, 2, rfl, rfl, by decide⟩
  have htables := inTables_of_reactions hread _ (List.mem_of_getElem? (i := 1) rfl)
  obtain ⟨branch, hbranch⟩ := Reaction.exists_branch htables
  have hconditional := Reaction.conditional_of_branch hbranch
  exact hnot ⟨branch, hbranch, hconditional⟩

end Program

end VisualRules
