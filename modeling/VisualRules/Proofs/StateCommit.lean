import VisualRules.Proofs.Realization

/-!
# Where the state is committed

An advanced rule that opens a handler adds the snapshot that commits the state. A later rule is
placed by its own flag, so a basic one can go behind the snapshot, and a handler that a basic rule
opens never gets one. This says exactly when the snapshot is there and closes the handler.
-/

namespace VisualRules

/-- There is one state snapshot, and it is the last segment. -/
def CommitsLast (segments : List Segment) : Prop :=
  segments.count .stateSync = 1 ∧ segments.getLast? = some .stateSync

/-- No rule goes behind what is there already: the event of a basic rule asks for nothing, and some
rule before it tests something. The first rule has none before it, so it has to be advanced. -/
def NeverTrails (reactions : List Reaction) : Prop :=
  ∀ earlier reaction, earlier ++ [reaction] <+: reactions → reaction.isAdvanced = false →
    reaction.event.isSet = false ∧ ∃ other ∈ earlier, other.isConditional = true

private theorem neverTrails_push {reactions : List Reaction} {reaction : Reaction} :
    NeverTrails (reactions ++ [reaction]) ↔
      NeverTrails reactions ∧ (reaction.isAdvanced = false →
        reaction.event.isSet = false ∧ ∃ other ∈ reactions, other.isConditional = true) := by
  constructor
  · intro h
    refine ⟨?_, h reactions reaction (List.prefix_refl _)⟩
    intro earlier other hearlier
    exact h earlier other (hearlier.trans (List.prefix_append _ _))
  · intro hh earlier other hearlier
    obtain ⟨hreactions, hreaction⟩ := hh
    rcases List.prefix_concat_iff.mp hearlier with heq | hearlier
    · obtain ⟨rfl, hlast⟩ := List.append_inj' heq rfl
      rw [List.singleton_inj.mp hlast]
      exact hreaction
    · exact hreactions earlier other hearlier

namespace Chapter

private theorem slot_lt_length_iff {entries : List Entry} (h : entries ≠ []) (passage : Passage) :
    slot entries passage < entries.length ↔
      (passage.reaction.isAdvanced = false →
        passage.reaction.event.isSet = false ∧ ∃ entry ∈ entries, entry.isConditional = true) := by
  have hlength := List.length_pos_iff.mpr h
  unfold slot
  by_cases hadvanced : passage.reaction.isAdvanced = true
  · rw [if_pos hadvanced]
    simp only [hadvanced, Bool.true_eq_false, false_implies, iff_true]
    omega
  · have hbasic : passage.reaction.isAdvanced = false := by simpa using hadvanced
    rw [if_neg hadvanced]
    by_cases hset : passage.reaction.event.isSet = true
    · rw [if_pos hset]
      simp [hbasic, hset]
    · have hunset : passage.reaction.event.isSet = false := by simpa using hset
      rw [if_neg hset, List.findIdx_lt_length]
      simp [hbasic, hunset]

private theorem exists_isConditional_iff {passages : List Passage} :
    (∃ entry ∈ ofPassages passages, entry.isConditional = true) ↔
      ∃ reaction ∈ passages.map Passage.reaction, reaction.isConditional = true := by
  constructor
  · intro hh
    obtain ⟨entry, hentry, hconditional⟩ := hh
    cases entry with
    | stateSync => simp at hconditional
    | rule passage =>
      rw [Entry.isConditional_rule, passage.conditional_eq] at hconditional
      exact ⟨passage.reaction, List.mem_map_of_mem (rule_mem_ofPassages.mp hentry), hconditional⟩
  · intro hh
    obtain ⟨reaction, hreaction, hconditional⟩ := hh
    obtain ⟨passage, hpassage, rfl⟩ := List.mem_map.mp hreaction
    rw [← passage.conditional_eq] at hconditional
    exact ⟨.rule passage, rule_mem_ofPassages.mpr hpassage, hconditional⟩

/-- The snapshot stays the last entry exactly while no rule is put behind it. -/
theorem getLast?_ofPassages {passages : List Passage} (h : passages ≠ []) :
    (ofPassages passages).getLast? = some .stateSync ↔
      NeverTrails (passages.map Passage.reaction) := by
  -- The opener decides about the first snapshot, each later rule by its slot about the last entry.
  induction passages using List.reverseRecOn with
  | nil => exact absurd rfl h
  | append_singleton passages passage ih =>
    rw [ofPassages_push, List.map_append, List.map_singleton, neverTrails_push]
    by_cases hnil : passages = []
    · subst hnil
      rw [ofPassages_nil, extend, opening]
      cases hadvanced : passage.reaction.isAdvanced with
      | true => simp [NeverTrails]
      | false => simp
    · have hne := mt ofPassages_eq_nil_iff.mp hnil
      rw [extend_of_ne_nil hne, getLast?_insertIdx _ _ _ (slot_le_length _ _), ← ih hnil,
        ← exists_isConditional_iff, ← slot_lt_length_iff hne]
      by_cases hslot : slot (ofPassages passages) passage < (ofPassages passages).length
      · rw [if_pos hslot, and_iff_left hslot]
      · rw [if_neg hslot]
        simp [hslot]

private theorem count_stateSync_le_one (passages : List Passage) :
    ((ofPassages passages).map Entry.segment).count .stateSync ≤ 1 := by
  have hrules : (passages.map Passage.segment).count .stateSync = 0 := by
    rw [List.count_eq_zero]
    intro hmem
    obtain ⟨passage, _, heq⟩ := List.mem_map.mp hmem
    cases heq
  have hperm := ((ofPassages_perm passages).map Entry.segment).count_eq .stateSync
  rw [List.map_append, List.map_map, List.count_append] at hperm
  change _ = (passages.map Passage.segment).count .stateSync + _ at hperm
  rw [hperm, hrules]
  split <;> decide

private theorem commitsLast_iff_getLast? (handler : Handler) {passages : List Passage}
    (h : passages ≠ []) :
    CommitsLast (.header handler :: (ofPassages passages).map Entry.segment) ↔
      (ofPassages passages).getLast? = some .stateSync := by
  have hcount : ((Segment.header handler) :: (ofPassages passages).map Entry.segment).count
      .stateSync = ((ofPassages passages).map Entry.segment).count .stateSync :=
    List.count_cons_of_ne (by simp [Segment.header, Segment.stateSync])
  have hle := count_stateSync_le_one passages
  obtain ⟨last, hlast⟩ : ∃ last, (ofPassages passages).getLast? = some last := by
    rw [← Option.isSome_iff_exists, List.getLast?_isSome]
    exact mt ofPassages_eq_nil_iff.mp h
  rw [CommitsLast, hcount, List.getLast?_cons, List.getLast?_map, hlast]
  simp only [Option.map_some, Option.getD_some, Option.some.injEq]
  constructor
  · intro hh
    obtain ⟨_, hsegment⟩ := hh
    cases last with
    | rule passage => cases hsegment
    | stateSync => rfl
  · intro heq
    subst heq
    refine ⟨?_, rfl⟩
    have hmem : Segment.stateSync ∈ (ofPassages passages).map Entry.segment :=
      List.mem_map_of_mem (List.mem_of_getLast? hlast)
    have hpos := List.count_pos_iff.mpr hmem
    omega

end Chapter

namespace Program

/-- A handler commits the state last exactly if none of its rules goes behind what is there. -/
theorem commitsLast_iff {program : Program} {script : Script} (h : program.compile = .ok script) :
    ∃ reactions assembly, program.reactions = .ok reactions ∧
      Assembly.ofReactions reactions = .ok assembly ∧
      script = assembly.script program.advancedMode ∧
      ∀ handler ∈ handlersOf reactions,
        CommitsLast (assembly.layout.handlerSegments handler) ↔
          NeverTrails (reactions.filter fun reaction => reaction.handler = handler) := by
  obtain ⟨passages, assembly, hread, _, hassembly, hlayout, hscript⟩ := exists_of_compile h
  refine ⟨_, assembly, hread, hassembly, hscript, ?_⟩
  intro handler hmem
  have hne := ofHandler_ne_nil_iff.mpr hmem
  rw [hlayout.handlerSegments_eq hmem, entriesOf, Chapter.commitsLast_iff_getLast? handler hne,
    Chapter.getLast?_ofPassages hne, map_reaction_ofHandler]

/-- The basic rule goes behind the snapshot that the advanced one adds. -/
def committedEarly : Program where
  rules := [
    ((Rule.ofEvent (.ofKind .tap [])).withAction (.ofKind .setState [1, 0, 0, 0])).withAdvanced
      true,
    (Rule.ofEvent (.ofKind .tap [])).withAction (.ofKind .setState [0, 1, 0, 0])]
  advancedMode := true

def committedEarlyScript : Script where
  segments := [
    Line.textOf (preamble true .empty) ++ (Segment.header .tap).text,
    "\tnew_state[0] = 1\n",
    Segment.stateSync.text,
    "\tnew_state[1] = 1\n"]
  rulePositions := [1, 3]
  features := .empty

theorem not_commitsLast_of_committedEarly :
    committedEarly.compile = .ok committedEarlyScript ∧
      ∃ reactions assembly, committedEarly.reactions = .ok reactions ∧
        Assembly.ofReactions reactions = .ok assembly ∧
        committedEarlyScript = assembly.script true ∧ .tap ∈ handlersOf reactions ∧
        ¬CommitsLast (assembly.layout.handlerSegments .tap) := by
  have hcompile : committedEarly.compile = .ok committedEarlyScript := by decide +kernel
  obtain ⟨reactions, assembly, hread, hassembly, hscript, hcommits⟩ := commitsLast_iff hcompile
  have hread' : committedEarly.reactions = .ok [
      ⟨.tap, none, [.setState #v[.on, .any, .any, .any]], true⟩,
      ⟨.tap, none, [.setState #v[.any, .on, .any, .any]], false⟩] := by decide +kernel
  rw [hread, Except.ok.injEq] at hread'
  subst hread'
  refine ⟨hcompile, _, assembly, hread, hassembly, hscript, by decide, ?_⟩
  rw [hcommits .tap (by decide)]
  intro hnever
  obtain ⟨_, other, hother, hconditional⟩ := hnever [_] _ (List.prefix_refl _) rfl
  rw [List.mem_singleton.mp hother] at hconditional
  exact absurd hconditional (by decide)

end Program

end VisualRules
