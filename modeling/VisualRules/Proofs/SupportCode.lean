import VisualRules.Proofs.Fitting
import VisualRules.Proofs.Placement

/-!
# Support code

Support code is asked for by the actions of a rule, and by a handler when it is opened. All in all
it is what the rules ask for one by one, so their order is of no account, and what a rule asks for
can be told from its cards.
-/

namespace VisualRules

def Rule.PlaysSound (rule : Rule) : Prop := ∃ card ∈ rule.actions, card.kind = Kind.sound.name

/-- A card of the rule is one that the support code is there for. An accelerometer card says first
whether it asks for a tap, a roll or a pitch, and a tap needs no angle. -/
def Rule.AsksFor (rule : Rule) : Feature → Prop
  | .sound => rule.PlaysSound
  | .timer => rule.event.kind = Kind.timeout.name
  | .microphone => rule.event.kind = Kind.clap.name
  | .tiltAngle => rule.event.kind = Kind.accelerometer.name ∧
    (rule.event.values.head? = some TiltMode.roll.code ∨
      rule.event.values.head? = some TiltMode.pitch.code)

/-- The actions of the rule or its handler rely on the support code. -/
def Reaction.Needs (reaction : Reaction) (feature : Feature) : Prop :=
  feature ∈ reaction.features ∨ reaction.handler.feature? = some feature

private theorem exists_needs_of_mem_handlersOf {reactions : List Reaction} {handler : Handler}
    {feature : Feature} (hmem : handler ∈ handlersOf reactions)
    (h : handler.feature? = some feature) : ∃ reaction ∈ reactions, reaction.Needs feature := by
  obtain ⟨opener, hopener, rfl⟩ := mem_handlersOf.mp hmem
  exact ⟨opener, hopener, .inr h⟩

namespace Assembly

private theorem contains_openHandler (assembly : Assembly) (reaction : Reaction)
    (feature : Feature) :
    (assembly.openHandler reaction).features.contains feature = true ↔
      reaction.handler.feature? = some feature ∨ assembly.features.contains feature = true := by
  rw [openHandler, FeatureSet.contains_insertAll]
  simp

private theorem contains_of_place {assembly placed : Assembly} {reaction : Reaction}
    {position : Nat} (h : assembly.place reaction = .ok (placed, position)) (feature : Feature) :
    placed.features.contains feature = true ↔
      (assembly.layout.span? reaction.handler = none ∧
        reaction.handler.feature? = some feature) ∨
      assembly.features.contains feature = true := by
  unfold place at h
  split at h
  · next hspan =>
    cases h
    rw [contains_openHandler, hspan]
    simp
  · next span hspan =>
    simp only [bind_eq_ok, pure_eq_ok, Prod.mk.injEq] at h
    obtain ⟨_, _, rfl, _⟩ := h
    rw [hspan]
    simp

private theorem contains_of_add {assembly next : Assembly} {reaction : Reaction}
    (h : assembly.add reaction = .ok next) (feature : Feature) :
    next.features.contains feature = true ↔
      feature ∈ reaction.features ∨
      (assembly.layout.span? reaction.handler = none ∧
        reaction.handler.feature? = some feature) ∨
      assembly.features.contains feature = true := by
  simp only [add, bind_eq_ok, pure_eq_ok] at h
  obtain ⟨⟨placed, position⟩, hplace, _, _, _, _, rfl⟩ := h
  rw [← contains_of_place hplace, FeatureSet.contains_insertAll]
  simp

theorem contains_features_iff {passages : List Passage} {reactions : List Reaction}
    {assembly : Assembly} (hpassages : Transcribes passages reactions)
    (h : ofReactions reactions = .ok assembly) (feature : Feature) :
    assembly.features.contains feature = true ↔
      ∃ reaction ∈ reactions, reaction.Needs feature := by
  induction passages using List.reverseRecOn generalizing reactions assembly with
  | nil =>
    have hnil := hpassages.reactions_eq
    subst hnil
    cases h
    simp [empty]
  | append_singleton passages passage ih =>
    have hfront := hpassages.of_push.1
    obtain ⟨earlier, hearlier, hlayout⟩ := exists_ofReactions passages hfront.nodup
    rw [← hpassages.reactions_eq, List.map_append, List.map_singleton] at h ⊢
    rw [ofReactions_push, hearlier] at h
    rw [contains_of_add h, ih hfront hearlier, hlayout.span?_eq_none_iff]
    simp only [List.mem_append, List.mem_singleton, or_and_right, exists_or, exists_eq_left]
    constructor
    · intro hh
      rcases hh with hactions | ⟨_, hhandler⟩ | hneeds
      · exact .inr (.inl hactions)
      · exact .inr (.inr hhandler)
      · exact .inl hneeds
    · intro hh
      rcases hh with hneeds | hactions | hhandler
      · exact .inr (.inr hneeds)
      · exact .inl hactions
      · by_cases hmem : passage.handler ∈ handlersOf (passages.map Passage.reaction)
        · exact .inr (.inr (exists_needs_of_mem_handlersOf hmem hhandler))
        · exact .inr (.inl ⟨hmem, hhandler⟩)

theorem features_eq_of_perm {passages passages' : List Passage}
    {reactions reactions' : List Reaction} {assembly other : Assembly}
    (hpassages : Transcribes passages reactions) (hpassages' : Transcribes passages' reactions')
    (h : ofReactions reactions = .ok assembly) (h' : ofReactions reactions' = .ok other)
    (hperm : reactions.Perm reactions') :
    other.features = assembly.features := by
  ext feature
  rw [Bool.eq_iff_iff, contains_features_iff hpassages' h', contains_features_iff hpassages h]
  simp only [hperm.mem_iff]

end Assembly

section Cards

variable {rule : Rule} {reaction : Reaction}

private theorem Action.feature?_eq_sound_iff (action : Action) :
    action.feature? = some .sound ↔ action.kind = .sound := by
  cases action with
  | sound notes => exact iff_of_true rfl rfl
  | _ => exact iff_of_false nofun nofun

private theorem Rule.needs_sound_iff (h : rule.read = .ok reaction) :
    reaction.Needs .sound ↔ rule.PlaysSound := by
  obtain ⟨_, _, _, hactions, _⟩ := read_eq_ok.mp h
  have hhandler : reaction.handler.feature? ≠ some .sound := by
    cases reaction.handler <;> decide
  have hcards : (∃ card ∈ rule.actions, card.kind = Kind.sound.name) ↔
      ∃ action ∈ reaction.actions, action.feature? = some .sound := by
    apply exists_mem_iff_of_forall₂ (mapM_eq_ok.mp hactions)
    intro card action hcard
    rw [Card.kind_of_toAction hcard, Kind.name_inj, action.feature?_eq_sound_iff]
  rw [Reaction.Needs, or_iff_left hhandler, Reaction.features, List.mem_filterMap, PlaysSound,
    hcards]

private theorem Reaction.needs_iff_of_ne_sound {feature : Feature} (h : feature ≠ .sound) :
    reaction.Needs feature ↔ reaction.event.handler.feature? = some feature := by
  have hactions : feature ∉ reaction.features := by
    intro hmem
    obtain ⟨action, _, haction⟩ := List.mem_filterMap.mp hmem
    cases action with
    | sound notes =>
      cases haction
      exact h rfl
    | _ => cases haction
  exact or_iff_right hactions

private theorem Rule.needs_iff (h : rule.read = .ok reaction) (feature : Feature) :
    reaction.Needs feature ↔ rule.AsksFor feature := by
  obtain ⟨_, hevent, _⟩ := read_eq_ok.mp h
  have hkind := Card.kind_of_toEvent hevent
  cases feature with
  | sound => exact needs_sound_iff h
  | timer | microphone =>
    rw [Reaction.needs_iff_of_ne_sound (by decide), AsksFor, hkind, Kind.name_inj]
    cases reaction.event with
    | tilt mode angle => cases mode <;> simp [Event.kind, Event.handler, Handler.feature?]
    | _ => simp [Event.kind, Event.handler, Handler.feature?]
  | tiltAngle =>
    rw [Reaction.needs_iff_of_ne_sound (by decide), AsksFor, hkind, Kind.name_inj]
    cases heq : reaction.event with
    | tilt mode angle =>
      rw [heq] at hevent
      obtain ⟨hvalues, _⟩ := Card.values_of_toEvent_tilt hevent
      rw [hvalues]
      cases mode <;> simp [Event.kind, Event.handler, Handler.feature?, TiltMode.code]
    | _ => simp [Event.kind, Event.handler, Handler.feature?]

end Cards

/-- The features of a script are what the cards of its rules ask for. -/
theorem Program.contains_iff_exists_asksFor {program : Program} {passages : List Passage}
    {assembly : Assembly} (hread : program.reactions = .ok (passages.map Passage.reaction))
    (hpassages : Transcribes passages (passages.map Passage.reaction))
    (hassembly : Assembly.ofReactions (passages.map Passage.reaction) = .ok assembly)
    (feature : Feature) :
    assembly.features.contains feature = true ↔ ∃ rule ∈ program.rules, rule.AsksFor feature := by
  have hrules : (∃ rule ∈ program.rules, rule.AsksFor feature) ↔
      ∃ reaction ∈ passages.map Passage.reaction, reaction.Needs feature := by
    apply exists_mem_iff_of_forall₂ (reactions_eq_ok.mp hread)
    intro rule reaction hrule
    exact (Rule.needs_iff (Rule.toReaction_eq_ok.mp hrule).1 feature).symm
  rw [hrules]
  exact Assembly.contains_features_iff hpassages hassembly feature

end VisualRules
