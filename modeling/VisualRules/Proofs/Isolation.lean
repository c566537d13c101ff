import VisualRules.Proofs.Realization
import VisualRules.Proofs.Renumbering

namespace VisualRules

def Program.only (program : Program) (handler : Handler) : Program :=
  { program with rules := program.rules.filter fun rule => rule.handler? = some handler }

/-- How many rules of a handler a program has above a rule. -/
def Program.rank (program : Program) (handler : Handler) (number : Nat) : Nat :=
  (program.rules.take number).countP fun rule => rule.handler? = some handler

/-- One layout is the handler of another one, and its rules stand as far behind its header as they
do there. -/
structure Isolates (program : Program) (handler : Handler) (whole alone : Layout) : Prop where
  segments_eq : alone.segments = whole.handlerSegments handler
  position_eq : ∀ (number : Nat) (rule : Rule), program.rules[number]? = some rule →
    rule.handler? = some handler → ∃ span span' offset,
      whole.span? handler = some span ∧ alone.span? handler = some span' ∧
        whole.rules[number]? = some (span.header + offset) ∧
          alone.rules[program.rank handler number]? = some (span'.header + offset)

/-- How many rules of a handler come before a rule. -/
def rankIn (passages : List Passage) (handler : Handler) (number : Nat) : Nat :=
  (ofHandler handler (passages.take number)).length

def extract (passages : List Passage) (handler : Handler) : List Passage :=
  (ofHandler handler passages).map (Passage.renumber (rankIn passages handler))

section Extract

variable {passages : List Passage} {handler : Handler}

private theorem map_rankIn_ofHandler (handler : Handler) {reactions : List Reaction}
    (h : Transcribes passages reactions) :
    ((ofHandler handler passages).map Passage.number).map (rankIn passages handler) =
      List.range (ofHandler handler passages).length := by
  induction passages using List.reverseRecOn generalizing reactions with
  | nil => rfl
  | append_singleton passages passage ih =>
    obtain ⟨hfront, hnumber⟩ := h.of_push
    -- One more rule does not change the ranks of those above it.
    have hearlier : ((ofHandler handler passages).map Passage.number).map
        (rankIn (passages ++ [passage]) handler) =
          List.range (ofHandler handler passages).length := by
      rw [← ih hfront]
      apply List.map_congr_left
      intro number hmem
      obtain ⟨other, hother, rfl⟩ := List.mem_map.mp hmem
      have hget := hfront.getElem?_of_mem (List.mem_filter.mp hother).1
      obtain ⟨hlt, _⟩ := List.getElem?_eq_some_iff.mp hget
      rw [rankIn, rankIn, List.take_append_of_le_length (Nat.le_of_lt hlt)]
    by_cases heq : passage.handler = handler
    · subst heq
      rw [ofHandler_push_self, List.map_append, List.map_append, hearlier, List.length_append,
        List.length_singleton, List.range_succ, List.map_singleton, List.map_singleton, hnumber,
        rankIn, List.take_left]
    · rw [ofHandler_push_of_ne _ heq, hearlier]

private theorem extract_transcribes (handler : Handler) {reactions : List Reaction}
    (h : Transcribes passages reactions) :
    Transcribes (extract passages handler)
      (reactions.filter fun reaction => reaction.handler = handler) where
  reactions_eq := by
    rw [extract, Passage.map_reaction_renumber, map_reaction_ofHandler, h.reactions_eq]
  numbers_eq := by
    rw [extract, Passage.map_number_renumber, map_rankIn_ofHandler handler h, ← h.reactions_eq,
      ← map_reaction_ofHandler, List.length_map]

private theorem ofHandler_ofHandler (handler : Handler) (passages : List Passage) :
    ofHandler handler (ofHandler handler passages) = ofHandler handler passages := by
  simp [ofHandler]

private theorem entriesOf_extract (handler : Handler) (passages : List Passage) :
    entriesOf handler (extract passages handler) =
      (entriesOf handler passages).map (Entry.renumber (rankIn passages handler)) := by
  rw [extract, entriesOf_renumber, entriesOf, ofHandler_ofHandler, ← entriesOf]

private theorem handlersOf_extract (h : handler ∈ handlersOf (passages.map Passage.reaction)) :
    handlersOf ((extract passages handler).map Passage.reaction) = [handler] := by
  rw [extract, Passage.map_reaction_renumber]
  apply List.perm_singleton.mp
  rw [List.perm_ext_iff_of_nodup (nodup_handlersOf _) (List.nodup_singleton handler)]
  intro other
  rw [List.mem_singleton, mem_handlersOf]
  constructor
  · intro hh
    obtain ⟨reaction, hreaction, rfl⟩ := hh
    obtain ⟨passage, hpassage, rfl⟩ := List.mem_map.mp hreaction
    exact of_decide_eq_true (List.mem_filter.mp hpassage).2
  · intro heq
    obtain ⟨passage, hpassage⟩ := List.exists_mem_of_ne_nil _ (ofHandler_ne_nil_iff.mpr h)
    have hhandler : passage.handler = handler :=
      of_decide_eq_true (List.mem_filter.mp hpassage).2
    exact ⟨passage.reaction, List.mem_map_of_mem hpassage, hhandler.trans heq.symm⟩

private theorem outline_extract (h : handler ∈ handlersOf (passages.map Passage.reaction)) :
    (outline (extract passages handler)).map Piece.segment =
      .header handler :: (entriesOf handler passages).map Entry.segment := by
  have hsegment : Entry.segment ∘ Entry.renumber (rankIn passages handler) = Entry.segment :=
    funext (Entry.segment_renumber _)
  rw [outline, handlersOf_extract h, blocksOf, List.flatMap_singleton, map_segment_block,
    entriesOf_extract, List.map_map, hsegment]

/-- Alone a rule stands as far behind the header as among other handlers. -/
theorem exists_offset {whole alone : Layout} {reactions : List Reaction}
    (hwhole : whole.Realizes passages) (halone : alone.Realizes (extract passages handler))
    (hpassages : Transcribes passages reactions) {number : Nat} {passage : Passage}
    (hpassage : passages[number]? = some passage) (hhandler : passage.handler = handler) :
    ∃ span span' offset, whole.span? handler = some span ∧ alone.span? handler = some span' ∧
      whole.rules[number]? = some (span.header + offset) ∧
        alone.rules[rankIn passages handler number]? = some (span'.header + offset) := by
  have hextract := extract_transcribes handler hpassages
  have hmem := List.mem_of_getElem? hpassage
  obtain ⟨slot, hentry⟩ := List.mem_iff_getElem?.mp (rule_mem_entriesOf.mpr ⟨hmem, hhandler⟩)
  obtain ⟨before, after, hsplit⟩ := exists_split_of_entry hentry
  have hsplit' : handlersOf ((extract passages handler).map Passage.reaction) =
      [] ++ handler :: [] := handlersOf_extract (by simp [hsplit])
  have hentry' : (entriesOf handler (extract passages handler))[slot]? =
      some (.rule (passage.renumber (rankIn passages handler))) := by
    rw [entriesOf_extract, List.getElem?_map, hentry]
    rfl
  have hpassage' := hextract.getElem?_of_mem
    (rule_mem_entriesOf.mp (List.mem_of_getElem? hentry')).1
  have hrank : (passage.renumber (rankIn passages handler)).number =
      rankIn passages handler number := by
    rw [← hpassages.number_of_getElem? hpassage]
    rfl
  rw [hrank] at hpassage'
  refine ⟨_, _, 1 + slot, hwhole.span?_of_split hsplit, halone.span?_of_split hsplit', ?_, ?_⟩
  · rw [hwhole.getElem?_rules_of_entry hpassages.nodup hpassage hsplit hentry, Nat.add_assoc]
  · rw [halone.getElem?_rules_of_entry hextract.nodup hpassage' hsplit' hentry', Nat.add_assoc]

end Extract

namespace Program

variable {program : Program} {reactions : List Reaction}

private theorem reactions_only (h : program.reactions = .ok reactions) (handler : Handler) :
    (program.only handler).reactions =
      .ok (reactions.filter fun reaction => reaction.handler = handler) := by
  rw [reactions_eq_ok] at h ⊢
  refine List.rel_filter ?_ h
  intro rule reaction hrule
  simp [Rule.handler?_of_toReaction hrule]

private theorem rank_eq {passages : List Passage}
    (h : program.reactions = .ok (passages.map Passage.reaction)) (handler : Handler)
    (number : Nat) : program.rank handler number = rankIn passages handler number := by
  have htake := List.forall₂_take number (reactions_eq_ok.mp h)
  have hfilter : List.Forall₂ (fun rule reaction =>
      rule.toReaction program.advancedMode = .ok reaction)
      ((program.rules.take number).filter fun rule => rule.handler? = some handler)
      (((passages.map Passage.reaction).take number).filter fun reaction =>
        reaction.handler = handler) := by
    refine List.rel_filter ?_ htake
    intro rule reaction hrule
    simp [Rule.handler?_of_toReaction hrule]
  rw [rank, List.countP_eq_length_filter, hfilter.length_eq, ← List.map_take,
    ← map_reaction_ofHandler, List.length_map, rankIn]

/-- Compiling the rules of a handler alone gives that handler as it stands in the whole script. -/
theorem isolates_of_compile {script : Script} (h : program.compile = .ok script)
    {handler : Handler} (hused : ∃ rule ∈ program.rules, rule.handler? = some handler) :
    ∃ reactions whole alone, program.reactions = .ok reactions ∧
      Assembly.ofReactions reactions = .ok whole ∧ script = whole.script program.advancedMode ∧
      Assembly.ofReactions (reactions.filter fun reaction => reaction.handler = handler) =
        .ok alone ∧
      (program.only handler).compile = .ok (alone.script program.advancedMode) ∧
      Isolates program handler whole.layout alone.layout := by
  obtain ⟨passages, whole, hread, hpassages, hwhole, hlayout, hscript⟩ := exists_of_compile h
  obtain ⟨alone, halone, hlayout', hcompile⟩ := exists_compile_of_transcribes
    (reactions_only hread handler) (extract_transcribes handler hpassages)
  have hreads := reactions_eq_ok.mp hread
  have hopened : handler ∈ handlersOf (passages.map Passage.reaction) :=
    (mem_handlersOf_iff_exists_rule hreads).mpr hused
  refine ⟨_, whole, alone, hread, hwhole, hscript, halone, hcompile, ?_⟩
  constructor
  case segments_eq =>
    rw [hlayout'.segments_eq, outline_extract hopened, hlayout.handlerSegments_eq hopened]
  case position_eq =>
    intro number rule hrule hhandler
    obtain ⟨reaction, hreaction, hok⟩ := exists_getElem?_of_forall₂ hreads hrule
    obtain ⟨passage, hpassage, rfl⟩ := hpassages.exists_of_getElem? hreaction
    rw [Rule.handler?_of_toReaction hok, Option.some.injEq] at hhandler
    rw [rank_eq hread]
    exact exists_offset hlayout hlayout' hpassages hpassage hhandler

/-- Two handlers grow in turn, and in each a default moves in front. -/
def twoInTurn : Program where
  rules := [
    ((Rule.ofEvent (.ofKind .proximity [2, 0, 0, 0, 0, 0, 0, 1000, 2000])).withAction
      (.ofKind .setState [1, 0, 0, 0])).withAdvanced true,
    (Rule.ofEvent (.ofKind .buttons [1, 0, 0, 0, 0])).withAction (.ofKind .topColor [32, 0, 0]),
    (Rule.ofEvent (.ofKind .groundProximity [0, 0, 400, 450])).withAction (.ofKind .move [0, 0]),
    (Rule.ofEvent (.ofKind .buttons [0, 0, 0, 0, 0])).withAction (.ofKind .topColor [0, 0, 0]),
    ((Rule.ofEvent (.ofKind .proximity [0, 2, 0, 0, 0, 0, 0, 1000, 2000])).withAction
      (.ofKind .move [100, 100])).withAdvanced true]
  advancedMode := true

def twoInTurnScript : Script where
  segments := [
    Line.textOf (preamble true .empty) ++ (Segment.header .proximity).text,
    "\tmotor.left.target = 0\n\tmotor.right.target = 0\n",
    "\tif prox.horizontal[0] > 2000 then\n\t\tnew_state[0] = 1\n\tend\n",
    "\tif prox.horizontal[1] > 2000 then\n\t\tmotor.left.target = 100\n" ++
      "\t\tmotor.right.target = 100\n\tend\n",
    Segment.stateSync.text,
    (Segment.header .buttons).text,
    "\tcall leds.top(0,0,0)\n",
    "\tif button.forward == 1 then\n\t\tcall leds.top(32,0,0)\n\tend\n"]
  rulePositions := [2, 7, 1, 6, 3]
  features := .empty

theorem isolates_of_twoInTurn :
    twoInTurn.compile = .ok twoInTurnScript ∧
      (∃ rule ∈ twoInTurn.rules, rule.handler? = some .buttons) ∧
      ∃ reactions whole alone, twoInTurn.reactions = .ok reactions ∧
        Assembly.ofReactions reactions = .ok whole ∧ twoInTurnScript = whole.script true ∧
        Assembly.ofReactions (reactions.filter fun reaction => reaction.handler = .buttons) =
          .ok alone ∧
        (twoInTurn.only .buttons).compile = .ok (alone.script true) ∧
        Isolates twoInTurn .buttons whole.layout alone.layout :=
  have hused : ∃ rule ∈ twoInTurn.rules, rule.handler? = some .buttons := by decide +kernel
  ⟨by decide +kernel, hused, isolates_of_compile (by decide +kernel) hused⟩

end Program

end VisualRules
