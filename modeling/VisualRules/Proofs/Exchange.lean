import Mathlib.Logic.Equiv.Basic
import VisualRules.Proofs.HandlerOrder
import VisualRules.Proofs.Renumbering
import VisualRules.Proofs.SupportCode

/-!
# Exchanging rules

In basic mode a default goes in front of the special cases of its handler wherever it stands among
them, and a handler does not care for the rules of others. So two neighbours may change places
where no handler is opened sooner or later by that.
-/

namespace VisualRules

/-- A default and a special case of one handler, or rules of two handlers that rules above them
have opened. -/
inductive Exchangeable (above : List Rule) (one other : Rule) : Prop
  | sameHandler {event event' : Event} (one_eq : one.event.toEvent = .ok event)
      (other_eq : other.event.toEvent = .ok event') (handler_eq : event.handler = event'.handler)
      (isSet_ne : event.isSet ≠ event'.isSet)
  | openedHandlers {handler handler' : Handler} (one_eq : one.handler? = some handler)
      (other_eq : other.handler? = some handler') (handler_ne : handler ≠ handler')
      (opened : ∃ rule ∈ above, rule.handler? = some handler)
      (opened' : ∃ rule ∈ above, rule.handler? = some handler')

/-- The scripts are the same, except that two neighbours have changed places in the rule table. -/
structure Script.Exchanges (script exchanged : Script) (number : Nat) : Prop where
  segments_eq : exchanged.segments = script.segments
  text_eq : exchanged.text = script.text
  features_eq : exchanged.features = script.features
  rulePositions_eq : ∃ front position position' back, front.length = number ∧
    script.rulePositions = front ++ position :: position' :: back ∧
    exchanged.rulePositions = front ++ position' :: position :: back

/-- Of the one handler only one rule is a default, or the two handlers are both open. -/
structure Passage.Exchangeable (above : List Passage) (one other : Passage) : Prop where
  isSet_ne : one.handler = other.handler →
    one.reaction.event.isSet ≠ other.reaction.event.isSet
  opened : one.handler ≠ other.handler →
    one.handler ∈ handlersOf (above.map Passage.reaction) ∧
      other.handler ∈ handlersOf (above.map Passage.reaction)

section Passages

variable {above below : List Passage} {one other : Passage}

private theorem filter_exchange {p : Passage → Bool} (h : ¬(p one = true ∧ p other = true))
    (above below : List Passage) :
    (above ++ other :: one :: below).filter p = (above ++ one :: other :: below).filter p := by
  rw [List.filter_append, List.filter_append]
  congr 1
  by_cases hone : p one = true
  · have hother : ¬p other = true := fun hother => h ⟨hone, hother⟩
    simp [hone, hother]
  · simp [List.filter_cons, hone]

private theorem defaultsFirst_exchange (h : Passage.Exchangeable above one other)
    (handler : Handler) :
    defaultsFirst (ofHandler handler (above ++ other :: one :: below)) =
      defaultsFirst (ofHandler handler (above ++ one :: other :: below)) := by
  have hfilter (q : Passage → Bool)
      (hq : one.handler = other.handler → ¬(q one = true ∧ q other = true)) :
      (ofHandler handler (above ++ other :: one :: below)).filter q =
        (ofHandler handler (above ++ one :: other :: below)).filter q := by
    rw [ofHandler, ofHandler, List.filter_filter, List.filter_filter]
    apply filter_exchange
    intro hh
    simp only [Bool.and_eq_true, decide_eq_true_eq] at hh
    obtain ⟨⟨hone, hhandler⟩, hother, hhandler'⟩ := hh
    exact hq (hhandler.trans hhandler'.symm) ⟨hone, hother⟩
  rw [defaultsFirst, defaultsFirst, hfilter, hfilter]
  · intro heq hh
    exact h.isSet_ne heq (hh.1.trans hh.2.symm)
  · intro heq hh
    rw [Bool.not_eq_true', Bool.not_eq_true'] at hh
    exact h.isSet_ne heq (hh.1.trans hh.2.symm)

private theorem handlersOf_exchange (h : Passage.Exchangeable above one other) :
    handlersOf ((above ++ other :: one :: below).map Passage.reaction) =
      handlersOf ((above ++ one :: other :: below).map Passage.reaction) := by
  simp only [List.map_append, List.map_cons]
  by_cases heq : one.handler = other.handler
  · have hhandler : one.reaction.handler = other.reaction.handler := heq
    simp only [handlersOf, List.map_append, List.map_cons, hhandler]
  · obtain ⟨hone, hother⟩ := h.opened heq
    simp only [handlersOf_append_cons_of_mem hone, handlersOf_append_cons_of_mem hother]

private theorem entriesOf_of_plain {passages : List Passage}
    (h : ∀ passage ∈ passages, passage.IsPlain) (handler : Handler) :
    entriesOf handler passages = (defaultsFirst (ofHandler handler passages)).map .rule :=
  Chapter.ofPassages_of_plain fun passage hpassage => h passage (List.mem_filter.mp hpassage).1

private theorem outline_exchange (h : Passage.Exchangeable above one other)
    (hplain : ∀ passage ∈ above ++ one :: other :: below, passage.IsPlain) :
    outline (above ++ other :: one :: below) = outline (above ++ one :: other :: below) := by
  have hperm := (List.Perm.swap one other below).append_left above
  have hplain' : ∀ passage ∈ above ++ other :: one :: below, passage.IsPlain := by
    intro passage hpassage
    exact hplain passage (hperm.mem_iff.mp hpassage)
  rw [outline, outline, handlersOf_exchange h, blocksOf, blocksOf]
  apply List.flatMap_congr
  intro handler _
  rw [entriesOf_of_plain hplain, entriesOf_of_plain hplain', defaultsFirst_exchange h]

private theorem map_swap_of_not_mem {numbers : List Nat} {number number' : Nat}
    (h : number ∉ numbers) (h' : number' ∉ numbers) :
    numbers.map (Equiv.swap number number') = numbers := by
  rw [List.map_congr_left, List.map_id]
  intro other hother
  apply Equiv.swap_apply_of_ne_of_ne
  · rintro rfl
    exact h hother
  · rintro rfl
    exact h' hother

private theorem map_swap_exchange {numbers numbers' : List Nat} {number number' : Nat}
    (h : (numbers ++ number :: number' :: numbers').Nodup) :
    (numbers ++ number' :: number :: numbers').map (Equiv.swap number number') =
      numbers ++ number :: number' :: numbers' := by
  obtain ⟨_, hnodup, hdisjoint⟩ := List.nodup_append.mp h
  obtain ⟨hnumber, hnodup⟩ := List.nodup_cons.mp hnodup
  have hnumber' := (List.nodup_cons.mp hnodup).1
  have hfixed : numbers.map (Equiv.swap number number') = numbers := by
    apply map_swap_of_not_mem
    · exact fun hmem => hdisjoint number hmem number (by simp) rfl
    · exact fun hmem => hdisjoint number' hmem number' (by simp) rfl
  have hfixed' := map_swap_of_not_mem (mt (List.mem_cons_of_mem _) hnumber) hnumber'
  rw [List.map_append, List.map_cons, List.map_cons, Equiv.swap_apply_left,
    Equiv.swap_apply_right, hfixed, hfixed']

/-- Neighbours that have changed places take over each other's number. -/
def exchange (above : List Passage) (one other : Passage) (below : List Passage) : List Passage :=
  (above ++ other :: one :: below).map (Passage.renumber (Equiv.swap one.number other.number))

private theorem Transcribes.exchange {reactions : List Reaction}
    (h : Transcribes (above ++ one :: other :: below) reactions) :
    Transcribes (exchange above one other below)
      ((above ++ other :: one :: below).map Passage.reaction) where
  reactions_eq := Passage.map_reaction_renumber _ _
  numbers_eq := by
    have hnodup := h.nodup
    have hnumbers := h.numbers_eq
    rw [← h.length_eq] at hnumbers
    rw [List.map_append, List.map_cons, List.map_cons] at hnodup hnumbers
    rw [VisualRules.exchange, Passage.map_number_renumber, List.map_append, List.map_cons,
      List.map_cons, map_swap_exchange hnodup, hnumbers]
    simp

end Passages

namespace Layout.Realizes

variable {layout exchanged : Layout} {above below : List Passage} {one other : Passage}

private theorem segments_exchange (h : layout.Realizes (above ++ one :: other :: below))
    (h' : exchanged.Realizes (exchange above one other below))
    (houtline : outline (above ++ other :: one :: below) =
      outline (above ++ one :: other :: below)) :
    exchanged.segments = layout.segments := by
  have hsegment : Piece.segment ∘ Piece.renumber (Equiv.swap one.number other.number) =
      Piece.segment := funext (Piece.segment_renumber _)
  rw [h'.segments_eq, h.segments_eq, exchange, outline_renumber, List.map_map, hsegment, houtline]

private theorem rules_exchange (h : layout.Realizes (above ++ one :: other :: below))
    (h' : exchanged.Realizes (exchange above one other below))
    (houtline : outline (above ++ other :: one :: below) =
      outline (above ++ one :: other :: below)) :
    ∃ front position position' back, front.length = above.length ∧
      layout.rules = front ++ position :: position' :: back ∧
      exchanged.rules = front ++ position' :: position :: back := by
  have hrules : exchanged.rules = (above ++ other :: one :: below).map fun passage =>
      (outline (above ++ one :: other :: below)).findIdx (Piece.isRule passage.number) := by
    rw [h'.rules_eq, exchange, Passage.map_number_renumber, List.map_map, List.map_map]
    apply List.map_congr_left
    intro passage _
    rw [Function.comp_apply, Function.comp_apply,
      findIdx_outline_renumber _ (Equiv.injective _), houtline]
  rw [List.map_append, List.map_cons, List.map_cons] at hrules
  refine ⟨_, _, _, _, ?_, ?_, hrules⟩
  · rw [List.length_map]
  · rw [h.rules_eq, List.map_map, List.map_append, List.map_cons, List.map_cons]
    rfl

end Layout.Realizes

namespace Program

variable {above below : List Rule} {one other : Rule}

private theorem exchangeable_of_reads {advancedMode : Bool} {passages : List Passage}
    {passage passage' : Passage} (hpair : Exchangeable above one other)
    (habove : List.Forall₂ (fun rule passage => rule.toReaction advancedMode = .ok passage.reaction)
      above passages)
    (hone : one.toReaction advancedMode = .ok passage.reaction)
    (hother : other.toReaction advancedMode = .ok passage'.reaction) :
    Passage.Exchangeable passages passage passage' := by
  cases hpair with
  | sameHandler one_eq other_eq handler_eq isSet_ne =>
    rw [Rule.toEvent_of_toReaction hone, Except.ok.injEq] at one_eq
    rw [Rule.toEvent_of_toReaction hother, Except.ok.injEq] at other_eq
    subst one_eq other_eq
    exact ⟨fun _ => isSet_ne, fun hne => absurd handler_eq hne⟩
  | openedHandlers one_eq other_eq handler_ne opened opened' =>
    rw [Rule.handler?_of_toReaction hone, Option.some.injEq] at one_eq
    rw [Rule.handler?_of_toReaction hother, Option.some.injEq] at other_eq
    subst one_eq other_eq
    have hreads : List.Forall₂ (fun rule reaction => rule.toReaction advancedMode = .ok reaction)
        above (passages.map Passage.reaction) := List.forall₂_map_right_iff.mpr habove
    refine ⟨fun heq => absurd heq handler_ne, fun _ => ?_⟩
    rw [mem_handlersOf_iff_exists_rule hreads, mem_handlersOf_iff_exists_rule hreads]
    exact ⟨opened, opened'⟩

/-- Exchangeable neighbours of a program in basic mode can change places. -/
theorem exchanges_of_compile {script : Script}
    (h : (ofRules (above ++ one :: other :: below)).compile = .ok script)
    (hpair : Exchangeable above one other) :
    ∃ exchanged, (ofRules (above ++ other :: one :: below)).compile = .ok exchanged ∧
      script.Exchanges exchanged above.length := by
  obtain ⟨passages, assembly, hread, hpassages, hassembly, hlayout, rfl⟩ := exists_of_compile h
  have hplain := isPlain_of_basic hread rfl
  obtain ⟨front, rest, rfl, habove, hrest⟩ := exists_append_of_forall₂
    (List.forall₂_map_right_iff.mp (reactions_eq_ok.mp hread))
  obtain ⟨passage, rest, hone, htail, rfl⟩ := List.forall₂_cons_left_iff.mp hrest
  obtain ⟨passage', back, hother, hbelow, rfl⟩ := List.forall₂_cons_left_iff.mp htail
  have hread' : (ofRules (above ++ other :: one :: below)).reactions =
      .ok ((front ++ passage' :: passage :: back).map Passage.reaction) := by
    rw [reactions_eq_ok, List.forall₂_map_right_iff]
    exact List.rel_append habove (.cons hother (.cons hone hbelow))
  -- The exchanged rules have the same outline up to their numbers, so it gives both scripts.
  have hpassages' := hpassages.exchange
  obtain ⟨exchanged, hexchanged, hlayout', hcompile⟩ :=
    exists_compile_of_transcribes hread' hpassages'
  have houtline := outline_exchange (exchangeable_of_reads hpair habove hone hother) hplain
  have hsegments := hlayout.segments_exchange hlayout' houtline
  have hperm := (List.Perm.swap passage' passage back).append_left front
  have hfeatures := Assembly.features_eq_of_perm hpassages hpassages' hassembly hexchanged
    (hperm.map _)
  have hscript : (exchanged.script false).segments = (assembly.script false).segments := by
    simp only [Assembly.script, Layout.texts, hsegments, hfeatures]
  obtain ⟨before, position, position', after, hlength, hrules, hrules'⟩ :=
    hlayout.rules_exchange hlayout' houtline
  refine ⟨_, hcompile, hscript, congrArg String.join hscript, hfeatures, ?_⟩
  refine ⟨before, position, position', after, ?_, hrules, hrules'⟩
  rw [hlength, habove.length_eq]

def lightOnClap : Rule :=
  (Rule.ofEvent (.ofKind .clap [])).withAction (.ofKind .topColor [32, 0, 0])

def stopNear : Rule :=
  (Rule.ofEvent (.ofKind .proximity [2, 0, 0, 0, 0, 0, 0, 1000, 2000])).withAction
    (.ofKind .move [0, 0])

/-- The default of the handler that `stopNear` belongs to. -/
def goOn : Rule :=
  (Rule.ofEvent (.ofKind .groundProximity [0, 0, 400, 450])).withAction (.ofKind .move [100, 100])

def stopNearScript : Script where
  segments := [
    Line.textOf (preamble false (.insert .empty .microphone)) ++ (Segment.header .clap).text,
    "\tcall leds.top(32,0,0)\n",
    "\tcall leds.top(32,0,0)\n",
    (Segment.header .proximity).text,
    "\tmotor.left.target = 100\n\tmotor.right.target = 100\n",
    "\tif prox.horizontal[0] > 2000 then\n\t\tmotor.left.target = 0\n" ++
      "\t\tmotor.right.target = 0\n\tend\n"]
  rulePositions := [1, 5, 4, 2]
  features := .insert .empty .microphone

theorem exchanges_of_stopNear :
    (ofRules ([lightOnClap] ++ stopNear :: goOn :: [lightOnClap])).compile = .ok stopNearScript ∧
      Exchangeable [lightOnClap] stopNear goOn ∧
      ∃ exchanged,
        (ofRules ([lightOnClap] ++ goOn :: stopNear :: [lightOnClap])).compile = .ok exchanged ∧
          stopNearScript.Exchanges exchanged 1 := by
  have hcompile : (ofRules ([lightOnClap] ++ stopNear :: goOn :: [lightOnClap])).compile =
      .ok stopNearScript := by decide +kernel
  have hnear : stopNear.event.toEvent =
      .ok (.proximity ⟨#v[.above, .any, .any, .any, .any, .any, .any], 1000, 2000⟩) := by
    decide +kernel
  have hdefault : goOn.event.toEvent = .ok (.groundProximity ⟨#v[.any, .any], 400, 450⟩) := by
    decide +kernel
  have hpair : Exchangeable [lightOnClap] stopNear goOn :=
    .sameHandler hnear hdefault (by decide) (by decide)
  exact ⟨hcompile, hpair, exchanges_of_compile hcompile hpair⟩

end Program

end VisualRules
