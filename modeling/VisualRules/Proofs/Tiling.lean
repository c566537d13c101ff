import VisualRules.Proofs.Realization

/-!
# Tilings

The spans of the opened handlers lie side by side and leave out no segment. How long a span is and
where it starts are kept apart; whatever rules are laid out, in whatever order, the two agree.
-/

namespace VisualRules

/-- The position is that of the header or of a segment that follows it. -/
def Span.Covers (span : Span) (position : Nat) : Prop :=
  span.header ≤ position ∧ position ≤ span.header + span.used

def Layout.spanned (layout : Layout) (handlers : List Handler) : List (Handler × Span) :=
  handlers.filterMap fun handler => (layout.span? handler).map (handler, ·)

/-- The spans tile the segments, and each rule lies in the span of its handler. -/
structure Layout.Tiles (layout : Layout) (reactions : List Reaction) : Prop where
  opened_iff : ∀ handler, (layout.span? handler).isSome = true ↔ handler ∈ handlersOf reactions
  header_role : ∀ handler span, layout.span? handler = some span →
    layout.segments[span.header]?.map Segment.role = some (.header handler)
  disjoint : ∀ one other span span', one ≠ other → layout.span? one = some span →
    layout.span? other = some span' → ∀ position, ¬(span.Covers position ∧ span'.Covers position)
  cover : ∀ position, position < layout.size ↔
    ∃ handler span, layout.span? handler = some span ∧ span.Covers position
  order : layout.handlersInOrder.map Prod.fst = handlersOf reactions
  length_rules : layout.rules.length = reactions.length
  rule_inside : ∀ (number : Nat) (reaction : Reaction), reactions[number]? = some reaction →
    ∃ position span, layout.rules[number]? = some position ∧
      layout.span? reaction.handler = some span ∧ span.header < position ∧ span.Covers position
  header_unique : ∀ (position : Nat) (handler : Handler),
    layout.segments[position]?.map Segment.role = some (.header handler) →
      ∃ span, layout.span? handler = some span ∧ position = span.header

namespace Layout

private theorem mem_spanned {layout : Layout} {handlers : List Handler} {handler : Handler}
    {span : Span} :
    (handler, span) ∈ layout.spanned handlers ↔
      handler ∈ handlers ∧ layout.span? handler = some span := by
  simp only [spanned, List.mem_filterMap, Option.map_eq_some_iff, Prod.mk.injEq]
  constructor
  · intro hh
    obtain ⟨other, hmem, _, hspan, rfl, rfl⟩ := hh
    exact ⟨hmem, hspan⟩
  · intro hh
    obtain ⟨hmem, hspan⟩ := hh
    exact ⟨handler, hmem, span, hspan, rfl, rfl⟩

private theorem nodup_spanned (layout : Layout) {handlers : List Handler} (h : handlers.Nodup) :
    (layout.spanned handlers).Nodup := by
  refine h.filterMap ?_
  intro one other pair hone hother
  rw [Option.mem_def, Option.map_eq_some_iff] at hone hother
  obtain ⟨_, _, rfl⟩ := hone
  obtain ⟨_, _, heq⟩ := hother
  exact (congrArg Prod.fst heq).symm

namespace Realizes

variable {layout : Layout} {passages : List Passage}

private theorem exists_split_of_span? (h : layout.Realizes passages) {handler : Handler}
    {span : Span} (hspan : layout.span? handler = some span) :
    ∃ before after,
      handlersOf (passages.map Passage.reaction) = before ++ handler :: after ∧
        span = ⟨(blocksOf before passages).length, (entriesOf handler passages).length⟩ := by
  have hmem := (h.opened_iff handler).mp (by rw [hspan]; rfl)
  obtain ⟨before, after, hsplit⟩ := List.append_of_mem hmem
  rw [h.span?_of_split hsplit, Option.some.injEq] at hspan
  exact ⟨before, after, hsplit, hspan.symm⟩

/-- A handler that opened earlier ends before a later one starts. -/
theorem spans_pairwise (h : layout.Realizes passages) :
    (handlersOf (passages.map Passage.reaction)).Pairwise fun one other =>
      ∀ span span', layout.span? one = some span → layout.span? other = some span' →
        span.header + span.used < span'.header := by
  rw [List.pairwise_iff_forall_sublist]
  intro one other hsublist span span' hspan hspan'
  obtain ⟨front, back, hsplit, hone, hother⟩ := List.cons_sublist_iff.mp hsublist
  rw [List.singleton_sublist] at hother
  obtain ⟨before, between, rfl⟩ := List.append_of_mem hone
  obtain ⟨behind, after, rfl⟩ := List.append_of_mem hother
  have hsplit' : handlersOf (passages.map Passage.reaction) =
      (before ++ one :: (between ++ behind)) ++ other :: after := by
    rw [hsplit]
    simp
  rw [List.append_assoc, List.cons_append] at hsplit
  rw [h.span?_of_split hsplit, Option.some.injEq] at hspan
  rw [h.span?_of_split hsplit', Option.some.injEq] at hspan'
  rw [← hspan, ← hspan', blocksOf, blocksOf, List.flatMap_append, List.flatMap_cons,
    List.length_append, List.length_append, length_block]
  dsimp only
  omega

private theorem spans_disjoint (h : layout.Realizes passages) {one other : Handler}
    {span span' : Span} (hne : one ≠ other) (hspan : layout.span? one = some span)
    (hspan' : layout.span? other = some span') (position : Nat) :
    ¬(span.Covers position ∧ span'.Covers position) := by
  intro hh
  obtain ⟨⟨hstart, hstop⟩, hstart', hstop'⟩ := hh
  have hmem := (h.opened_iff one).mp (by rw [hspan]; rfl)
  have hmem' := (h.opened_iff other).mp (by rw [hspan']; rfl)
  have hpairwise := h.spans_pairwise
  obtain ⟨before, after, hsplit⟩ := List.append_of_mem hmem
  rw [hsplit, List.mem_append, List.mem_cons] at hmem'
  rw [hsplit, List.pairwise_append, List.pairwise_cons] at hpairwise
  obtain ⟨_, ⟨hafter, _⟩, hbefore⟩ := hpairwise
  rcases hmem' with hmem' | rfl | hmem'
  · have hlt := hbefore other hmem' one List.mem_cons_self span' span hspan' hspan
    omega
  · exact hne rfl
  · have hlt := hafter other hmem' span span' hspan hspan'
    omega

private theorem covers_iff (h : layout.Realizes passages) (position : Nat) :
    position < layout.size ↔
      ∃ handler span, layout.span? handler = some span ∧ span.Covers position := by
  rw [h.size_eq]
  constructor
  · intro hlt
    obtain ⟨before, handler, after, hsplit, hstart, hstop⟩ := exists_split_of_lt hlt
    exact ⟨handler, _, h.span?_of_split hsplit, hstart, hstop⟩
  · intro hh
    obtain ⟨handler, span, hspan, _, hstop⟩ := hh
    obtain ⟨before, after, hsplit, rfl⟩ := h.exists_split_of_span? hspan
    rw [outline_split hsplit, List.length_append, List.length_append, length_block]
    dsimp only at hstop
    omega

private theorem spanned_pairwise (h : layout.Realizes passages) :
    (layout.spanned (handlersOf (passages.map Passage.reaction))).Pairwise
      fun one other => one.2.header < other.2.header := by
  rw [spanned, List.pairwise_filterMap]
  refine h.spans_pairwise.imp ?_
  intro one other hlt pair hpair pair' hpair'
  rw [Option.map_eq_some_iff] at hpair hpair'
  obtain ⟨span, hspan, rfl⟩ := hpair
  obtain ⟨span', hspan', rfl⟩ := hpair'
  have hheader := hlt span span' hspan hspan'
  dsimp only
  omega

private theorem handlersInOrder_perm (h : layout.Realizes passages) :
    layout.handlersInOrder.Perm
      (layout.spanned (handlersOf (passages.map Passage.reaction))) := by
  refine (List.mergeSort_perm _ _).trans ?_
  change (layout.spanned Handler.all).Perm _
  rw [List.perm_ext_iff_of_nodup (layout.nodup_spanned (by decide))
    (layout.nodup_spanned (nodup_handlersOf _))]
  intro pair
  obtain ⟨handler, span⟩ := pair
  rw [mem_spanned, mem_spanned]
  refine and_congr_left fun hspan => ?_
  rw [← h.opened_iff, hspan]
  simp [Handler.mem_all]

/-- Sorting the spans by their headers finds the order in which the handlers were opened. -/
theorem handlersInOrder_eq (h : layout.Realizes passages) :
    layout.handlersInOrder = layout.spanned (handlersOf (passages.map Passage.reaction)) := by
  have hascending : layout.handlersInOrder.Pairwise fun one other =>
      one.2.header ≤ other.2.header := by
    have hle : layout.handlersInOrder.Pairwise fun one other =>
        decide (one.2.header ≤ other.2.header) = true := by
      apply List.pairwise_mergeSort
      · intro one two three hle hle'
        exact decide_eq_true (Nat.le_trans (of_decide_eq_true hle) (of_decide_eq_true hle'))
      · intro one other
        simpa using Nat.le_total one.2.header other.2.header
    exact hle.imp of_decide_eq_true
  refine List.Perm.eq_of_pairwise ?_ hascending (h.spanned_pairwise.imp Nat.le_of_lt)
    h.handlersInOrder_perm
  intro pair pair' hpair hpair' hle hle'
  obtain ⟨one, span⟩ := pair
  obtain ⟨other, span'⟩ := pair'
  have hspan := (mem_spanned.mp (h.handlersInOrder_perm.mem_iff.mp hpair)).2
  have hspan' := (mem_spanned.mp hpair').2
  by_cases heq : one = other
  · rw [heq, hspan', Option.some.injEq] at hspan
    rw [heq, hspan]
  · refine absurd ⟨⟨Nat.le_refl _, Nat.le_add_right _ _⟩, hle', ?_⟩
      (h.spans_disjoint heq hspan hspan' span.header)
    exact Nat.le_trans hle (Nat.le_add_right _ _)

private theorem map_fst_handlersInOrder (h : layout.Realizes passages) :
    layout.handlersInOrder.map Prod.fst = handlersOf (passages.map Passage.reaction) := by
  rw [h.handlersInOrder_eq, spanned, List.map_filterMap]
  calc (handlersOf (passages.map Passage.reaction)).filterMap
        (fun handler => ((layout.span? handler).map (handler, ·)).map Prod.fst)
    _ = (handlersOf (passages.map Passage.reaction)).filterMap some := by
      apply List.filterMap_congr
      intro handler hhandler
      obtain ⟨span, hspan⟩ := Option.isSome_iff_exists.mp ((h.opened_iff handler).mpr hhandler)
      rw [hspan]
      rfl
    _ = handlersOf (passages.map Passage.reaction) := List.filterMap_some

private theorem header_role (h : layout.Realizes passages) {handler : Handler} {span : Span}
    (hspan : layout.span? handler = some span) :
    layout.segments[span.header]?.map Segment.role = some (.header handler) := by
  obtain ⟨before, after, hsplit, rfl⟩ := h.exists_split_of_span? hspan
  rw [h.getElem?_segments, getElem?_header_of_split hsplit]
  rfl

private theorem header_unique (h : layout.Realizes passages) {handler : Handler} {position : Nat}
    (hrole : layout.segments[position]?.map Segment.role = some (.header handler)) :
    ∃ span, layout.span? handler = some span ∧ position = span.header := by
  rw [h.getElem?_segments, Option.map_map, Option.map_eq_some_iff] at hrole
  obtain ⟨piece, hpiece, hrole⟩ := hrole
  obtain ⟨hlt, _⟩ := List.getElem?_eq_some_iff.mp hpiece
  obtain ⟨before, other, after, hsplit, hstart, hstop⟩ := exists_split_of_lt hlt
  obtain ⟨offset, rfl⟩ := Nat.exists_eq_add_of_le hstart
  cases offset with
  | zero =>
    rw [Nat.add_zero, getElem?_header_of_split hsplit, Option.some.injEq] at hpiece
    rw [← hpiece] at hrole
    cases hrole
    exact ⟨_, h.span?_of_split hsplit, rfl⟩
  | succ index =>
    have hentry := List.getElem?_eq_getElem (l := entriesOf other passages) (i := index) (by omega)
    rw [Nat.add_comm index, ← Nat.add_assoc, getElem?_entry_of_split hsplit hentry,
      Option.some.injEq] at hpiece
    rw [← hpiece] at hrole
    cases hkind : (entriesOf other passages)[index] with
    | rule passage =>
      rw [hkind] at hrole
      cases hrole
    | stateSync =>
      rw [hkind] at hrole
      cases hrole

private theorem rule_inside (h : layout.Realizes passages)
    (hnodup : (passages.map Passage.number).Nodup) {index : Nat} {passage : Passage}
    (hget : passages[index]? = some passage) :
    ∃ position span, layout.rules[index]? = some position ∧
      layout.span? passage.handler = some span ∧ span.header < position ∧
        span.Covers position := by
  have hmem := List.mem_of_getElem? hget
  obtain ⟨slot, hentry⟩ := List.mem_iff_getElem?.mp (rule_mem_entriesOf.mpr ⟨hmem, rfl⟩)
  obtain ⟨before, after, hsplit⟩ := exists_split_of_entry hentry
  obtain ⟨hlt, _⟩ := List.getElem?_eq_some_iff.mp hentry
  refine ⟨_, _, h.getElem?_rules_of_entry hnodup hget hsplit hentry, h.span?_of_split hsplit, ?_⟩
  rw [Span.Covers]
  dsimp only
  omega

private theorem tiles (h : layout.Realizes passages)
    (hpassages : Transcribes passages (passages.map Passage.reaction)) :
    layout.Tiles (passages.map Passage.reaction) where
  opened_iff := h.opened_iff
  header_role _ _ hspan := h.header_role hspan
  disjoint _ _ _ _ hne hspan hspan' := h.spans_disjoint hne hspan hspan'
  cover := h.covers_iff
  order := h.map_fst_handlersInOrder
  length_rules := by rw [h.length_rules, List.length_map]
  rule_inside number reaction hreaction := by
    obtain ⟨passage, hpassage, rfl⟩ := hpassages.exists_of_getElem? hreaction
    exact h.rule_inside hpassages.nodup hpassage
  header_unique _ _ hrole := h.header_unique hrole

end Realizes

end Layout

/-- After any number of rules that were read the spans tile the segments. -/
theorem Assembly.tiles_of_prefix {reactions visited : List Reaction}
    (hread : ∀ reaction ∈ reactions, ∃ (advancedMode : Bool) (rule : Rule),
      rule.toReaction advancedMode = .ok reaction)
    (hvisited : visited <+: reactions) :
    ∃ assembly, Assembly.ofReactions visited = .ok assembly ∧ assembly.layout.Tiles visited := by
  have htables : ∀ reaction ∈ visited, reaction.InTables := by
    intro reaction hreaction
    obtain ⟨advancedMode, rule, hrule⟩ := hread reaction (hvisited.subset hreaction)
    exact Rule.inTables_of_toReaction hrule
  obtain ⟨passages, hpassages⟩ := exists_transcribes htables
  obtain ⟨assembly, hassembly, hlayout⟩ := Assembly.exists_ofReactions passages hpassages.nodup
  have heq := hpassages.reactions_eq
  subst heq
  exact ⟨assembly, hassembly, hlayout.tiles hpassages⟩

/-- The third rule joins the handler of the first, in front of that of the second. -/
def Reaction.alternating : List Reaction :=
  [⟨.tap, none, [], true⟩, ⟨.clap, none, [], false⟩, ⟨.tap, none, [.timer 500], false⟩,
    ⟨.timeout, none, [], true⟩]

theorem tiles_of_alternating :
    (∀ reaction ∈ Reaction.alternating, ∃ (advancedMode : Bool) (rule : Rule),
      rule.toReaction advancedMode = .ok reaction) ∧
    Reaction.alternating.take 3 <+: Reaction.alternating ∧
    ∃ assembly, Assembly.ofReactions (Reaction.alternating.take 3) = .ok assembly ∧
      assembly.layout.Tiles (Reaction.alternating.take 3) := by
  have hread : ∀ reaction ∈ Reaction.alternating, ∃ (advancedMode : Bool) (rule : Rule),
      rule.toReaction advancedMode = .ok reaction := by
    simp only [Reaction.alternating, List.forall_mem_cons]
    refine ⟨⟨true, (Rule.ofEvent (.ofKind .tap [])).withAdvanced true, by decide +kernel⟩,
      ⟨true, Rule.ofEvent (.ofKind .clap []), by decide +kernel⟩,
      ⟨true, (Rule.ofEvent (.ofKind .tap [])).withAction (.ofKind .timer [500]),
        by decide +kernel⟩,
      ⟨true, (Rule.ofEvent (.ofKind .timeout [])).withAdvanced true, by decide +kernel⟩,
      by simp⟩
  have hvisited := List.take_prefix 3 Reaction.alternating
  exact ⟨hread, hvisited, Assembly.tiles_of_prefix hread hvisited⟩

end VisualRules
