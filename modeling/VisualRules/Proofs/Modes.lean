import VisualRules.Proofs.Refusal

namespace VisualRules

open Preamble

/-- The second script is the first one with the state declared in its preamble: the variables in
front, the subroutine that displays them right after the output reset. -/
structure Script.DeclaresState (basic advanced : Script) : Prop where
  rulePositions_eq : advanced.rulePositions = basic.rulePositions
  features_eq : advanced.features = basic.features
  tail_eq : advanced.segments.tail = basic.segments.tail
  isEmpty_iff : advanced.segments = [] ↔ basic.segments = []
  head_eq : ∀ head ∈ basic.segments.head?, ∃ before after,
    head = before ++ Line.textOf outputReset ++ after ∧
      advanced.segments.head? = some (Line.textOf stateVariables ++ before ++
        Line.textOf outputReset ++ Line.textOf stateDisplay ++ after)

/-- The first rule that asks for the state is blamed for that, as there is none in basic mode. -/
def RefusedForState (rules : List Rule) (outcome : Except Failure Script) : Prop :=
  ∃ before rule after, rules = before ++ rule :: after ∧
    (∀ earlier ∈ before, ¬earlier.AsksForState) ∧ rule.AsksForState ∧
      outcome = .error (.refused ⟨some before.length, .stateInBasicMode⟩)

private theorem Assembly.script_declaresState (assembly : Assembly) :
    (assembly.script false).DeclaresState (assembly.script true) where
  rulePositions_eq := rfl
  features_eq := rfl
  tail_eq := by rw [script, script, List.tail_modifyHead, List.tail_modifyHead]
  isEmpty_iff := by simp [script]
  head_eq := by
    intro head hhead
    let support := (if assembly.features.tiltAngle then angleVariable else []) ++
      (if assembly.features.sound then soundSetup else []) ++
      (if assembly.features.timer then timerStop else []) ++
      (if assembly.features.microphone then microphoneSetup else [])
    let queue := if assembly.features.sound then noteQueue else []
    have hbasic : preamble false assembly.features = support ++ outputReset ++ queue := by
      simp [preamble, support, queue]
    have hadvanced : preamble true assembly.features =
        stateVariables ++ support ++ outputReset ++ stateDisplay ++ queue := by
      simp [preamble, support, queue]
    simp only [script, hbasic, hadvanced, Line.textOf_append] at hhead ⊢
    cases htexts : assembly.layout.texts with
    | nil =>
      rw [htexts] at hhead
      cases hhead
    | cons text rest =>
      rw [htexts] at hhead
      cases hhead
      refine ⟨Line.textOf support, Line.textOf queue ++ text, ?_, ?_⟩
      · simp only [String.append_assoc]
      · simp only [List.modifyHead_cons, List.head?_cons, String.append_assoc]

namespace Rule

variable {rule : Rule}

private theorem toReaction_true_of_false {reaction : Reaction}
    (h : rule.toReaction false = .ok reaction) :
    rule.toReaction true = .ok reaction := by
  have hread := (toReaction_eq_ok.mp h).1
  exact toReaction_eq_ok.mpr ⟨hread, fun _ => rfl⟩

private theorem good_false_iff : rule.Good false ↔ rule.Good true ∧ ¬rule.AsksForState := by
  constructor
  · intro hgood
    exact ⟨⟨hgood.cardsFit, nofun⟩, hgood.state rfl⟩
  · rintro ⟨hgood, hasks⟩
    exact ⟨hgood.cardsFit, fun _ => hasks⟩

/-- The state is the last thing that is looked at, so whatever is wrong in advanced mode comes
first in basic mode too. -/
theorem breaks_false_of_true {violation : Violation} (h : rule.Breaks true violation) :
    rule.Breaks false violation := by
  cases h with
  | actionCount h => exact .actionCount h
  | event hlength h => exact .event hlength h
  | stateFilter hlength hevent hcard h => exact .stateFilter hlength hevent hcard h
  | action hlength hevent hfilter heq hbefore h =>
    exact .action hlength hevent hfilter heq hbefore h
  | state _ hbasic _ => cases hbasic

private theorem asksForState_of_isAnyAdvancedFeature (h : rule.isAnyAdvancedFeature = true) :
    rule.AsksForState := by
  rw [isAnyAdvancedFeature, Bool.or_eq_true] at h
  rcases h with hfilter | hwrite
  · exact .inr (.inl (Option.isSome_of_any hfilter))
  · obtain ⟨card, hcard, hwrite⟩ := List.any_eq_true.mp hwrite
    rw [Card.isStateWrite, Bool.and_eq_true, decide_eq_true_iff] at hwrite
    exact .inr (.inr ⟨card, hcard, Card.knownKind?_eq_some_iff.mp hwrite.1⟩)

end Rule

namespace Program

variable {rules : List Rule}

theorem exists_advanced_of_basic {basic : Script} (h : (mk rules false).compile = .ok basic) :
    ∃ advanced, (mk rules true).compile = .ok advanced ∧ basic.DeclaresState advanced := by
  obtain ⟨reactions, assembly, hread, hassembly, rfl⟩ := compile_eq_ok.mp h
  have hread' : (mk rules true).reactions = .ok reactions := by
    rw [reactions_eq_ok] at hread ⊢
    exact hread.imp fun _ _ => Rule.toReaction_true_of_false
  have hcompile := compile_eq_ok.mpr ⟨reactions, assembly, hread', hassembly, rfl⟩
  exact ⟨_, hcompile, assembly.script_declaresState⟩

private theorem good_of_compile {advancedMode : Bool} {script : Script}
    (h : (mk rules advancedMode).compile = .ok script) : ∀ rule ∈ rules, rule.Good advancedMode :=
  exists_compile_iff.mp ⟨script, h⟩

private theorem compile_of_first_asks {before : List Rule} {rule : Rule} (after : List Rule)
    (hbefore : ∀ earlier ∈ before, earlier.Good true ∧ ¬earlier.AsksForState)
    (hrule : rule.Good true) (hasks : rule.AsksForState) :
    (mk (before ++ rule :: after) false).compile =
      .error (.refused ⟨some before.length, .stateInBasicMode⟩) := by
  have hearlier : ∀ earlier ∈ before, earlier.Good false := fun earlier hearlier =>
    Rule.good_false_iff.mpr (hbefore earlier hearlier)
  have hbreaks : rule.Breaks false .stateInBasicMode := .state hrule.cardsFit rfl hasks
  exact compile_of_first_breaks rfl hearlier hbreaks

private theorem refusedForState_of_asks (hgood : ∀ rule ∈ rules, rule.Good true)
    (hasks : ∃ rule ∈ rules, rule.AsksForState) :
    RefusedForState rules (mk rules false).compile := by
  rcases forall_or_exists_first (¬Rule.AsksForState ·) rules with
    hnone | ⟨before, rule, after, rfl, hbefore, hrule⟩
  · obtain ⟨rule, hmem, hrule⟩ := hasks
    exact absurd hrule (hnone rule hmem)
  · rw [not_not] at hrule
    have hearlier : ∀ earlier ∈ before, earlier.Good true ∧ ¬earlier.AsksForState :=
      fun earlier hearlier => ⟨hgood earlier (by simp [hearlier]), hbefore earlier hearlier⟩
    have hcompile := compile_of_first_asks after hearlier (hgood rule (by simp)) hrule
    exact ⟨before, rule, after, rfl, hbefore, hrule, hcompile⟩

private theorem asks_of_refused (hgood : ∀ rule ∈ rules, rule.Good true)
    (h : ∀ basic, (mk rules false).compile ≠ .ok basic) : ∃ rule ∈ rules, rule.AsksForState := by
  by_contra hnone
  have hbasic : ∀ rule ∈ rules, rule.Good false := fun rule hrule =>
    Rule.good_false_iff.mpr ⟨hgood rule hrule, fun hasks => hnone ⟨rule, hrule, hasks⟩⟩
  obtain ⟨basic, hcompile⟩ : ∃ basic, (mk rules false).compile = .ok basic :=
    exists_compile_iff.mpr hbasic
  exact h basic hcompile

private theorem asks_of_isAnyAdvancedFeature {advancedMode : Bool}
    (h : (mk rules advancedMode).isAnyAdvancedFeature = true) :
    ∃ rule ∈ rules, rule.AsksForState := by
  obtain ⟨rule, hrule, hfeature⟩ := List.any_eq_true.mp h
  exact ⟨rule, hrule, Rule.asksForState_of_isAnyAdvancedFeature hfeature⟩

/-- What advanced mode blames a rule for, basic mode blames it for too, unless it has found a rule
above that asks for the state. -/
theorem basic_refusal_of_breaks {before after : List Rule} {rule : Rule} {violation : Violation}
    (hbefore : ∀ earlier ∈ before, earlier.Good true) (h : rule.Breaks true violation) :
    (mk (before ++ rule :: after) false).compile =
        .error (.refused ⟨some before.length, violation⟩) ∨
      ∃ j < before.length, (mk (before ++ rule :: after) false).compile =
        .error (.refused ⟨some j, .stateInBasicMode⟩) := by
  rcases forall_or_exists_first (¬Rule.AsksForState ·) before with
    hnone | ⟨above, asking, between, rfl, habove, hasks⟩
  · have hbasic : ∀ earlier ∈ before, earlier.Good false := fun earlier hearlier =>
      Rule.good_false_iff.mpr ⟨hbefore earlier hearlier, hnone earlier hearlier⟩
    exact .inl (compile_of_first_breaks rfl hbasic (Rule.breaks_false_of_true h))
  · rw [not_not] at hasks
    have hearlier : ∀ earlier ∈ above, earlier.Good true ∧ ¬earlier.AsksForState :=
      fun earlier hearlier => ⟨hbefore earlier (by simp [hearlier]), habove earlier hearlier⟩
    refine .inr ⟨above.length, by simp, ?_⟩
    rw [List.append_assoc, List.cons_append]
    exact compile_of_first_asks _ hearlier (hbefore asking (by simp)) hasks

/-- The modes agree on what both of them accept, and basic mode refuses more than advanced mode only
for the state. -/
theorem modes_agree (rules : List Rule) :
    (∀ basic, (mk rules false).compile = .ok basic →
      ∃ advanced, (mk rules true).compile = .ok advanced ∧ basic.DeclaresState advanced) ∧
    (∀ advanced, (mk rules true).compile = .ok advanced →
      (∀ basic, (mk rules false).compile ≠ .ok basic) ∨
          (mk rules true).isAnyAdvancedFeature = true →
        RefusedForState rules (mk rules false).compile) ∧
    ∀ failure, (mk rules true).compile = .error failure →
      ∃ i violation, failure = .refused ⟨some i, violation⟩ ∧
        ((mk rules false).compile = .error failure ∨
          ∃ j < i, (mk rules false).compile =
            .error (.refused ⟨some j, .stateInBasicMode⟩)) := by
  refine ⟨fun basic => exists_advanced_of_basic, ?_, ?_⟩
  · intro advanced hadvanced hreason
    have hgood := good_of_compile hadvanced
    apply refusedForState_of_asks hgood
    rcases hreason with hrefused | hfeature
    · exact asks_of_refused hgood hrefused
    · exact asks_of_isAnyAdvancedFeature hfeature
  · intro failure hfailure
    obtain ⟨before, rule, after, violation, heq, hbefore, hbreaks, rfl⟩ :=
      compile_eq_error_iff.mp hfailure
    cases heq
    exact ⟨before.length, violation, rfl, basic_refusal_of_breaks hbefore hbreaks⟩

end Program

end VisualRules
