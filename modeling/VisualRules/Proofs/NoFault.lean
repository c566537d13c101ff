import VisualRules.Proofs.Refusal
import VisualRules.Proofs.RuleTable

/-!
# Compiling meets no fault

Whatever the cards of a program say, nothing that compiling relies on fails. A program is refused
before any code is written, and from then on every position points at a segment, every note is in
its tables and every number fits.
-/

namespace VisualRules

/-- No step from a tilt to its band leaves the range of the numbers: each gives what it would give
without bounds. -/
structure BandIsExact (target : Int32) : Prop where
  scaled : (target * tiltScale).toInt = target.toInt * tiltScale.toInt
  middle : (target * tiltScale / tiltResolution).toInt =
    (target * tiltScale).toInt.tdiv tiltResolution.toInt
  reach : (tiltHalfBand / tiltResolution).toInt = tiltHalfBand.toInt.tdiv tiltResolution.toInt
  low : (target * tiltScale / tiltResolution - tiltHalfBand / tiltResolution).toInt =
    (target * tiltScale / tiltResolution).toInt - (tiltHalfBand / tiltResolution).toInt
  high : (target * tiltScale / tiltResolution + tiltHalfBand / tiltResolution).toInt =
    (target * tiltScale / tiltResolution).toInt + (tiltHalfBand / tiltResolution).toInt

/-- Everything that holds while one more rule is laid out. Room is made for the rule at a position
that is no further than the end, the rule gets the number that it has in the program, and its
segment is found where it was put. -/
structure Assembly.Visits (assembly : Assembly) (number : Nat) (reaction : Reaction) : Prop where
  lt_size : ∀ position ∈ assembly.layout.rules, position < assembly.layout.size
  inTables : reaction.InTables
  exists_steps : ∃ (placed next : Assembly) (position : Nat) (branch : Branch) (opened : Layout),
    assembly.place reaction = .ok (placed, position) ∧ position ≤ placed.layout.size ∧
      placed.layout.insert position .emptyBranch = .ok opened ∧ opened.rules.length = number ∧
      reaction.branch = .ok branch ∧
      (opened.bindRule position).replace? position (segmentOf branch) = some next.layout ∧
      assembly.add reaction = .ok next

/-- Nothing that compiling a program and asking for its rules relies on fails. -/
structure Program.NeverFaults (program : Program) : Prop where
  compile_ne : ∀ fault, program.compile ≠ .error (.fault fault)
  visits : ∀ before reaction after, program.reactions = .ok (before ++ reaction :: after) →
    ∃ assembly, Assembly.ofReactions before = .ok assembly ∧
      assembly.Visits before.length reaction
  exact_band : ∀ rule ∈ program.rules, ∀ mode angle, rule.event.toEvent = .ok (.tilt mode angle) →
    (-angle).toInt = -angle.toInt ∧ BandIsExact angle ∧ BandIsExact (-angle)
  lt_length : ∀ script, program.compile = .ok script → ∀ rule segment,
    script.segmentOfRule? rule = some segment → segment < script.segments.length

section Tilt

variable {target : Int32}

theorem toInt_scaled (h : -131071 ≤ target.toInt ∧ target.toInt ≤ 131071) :
    (target * tiltScale).toInt = target.toInt * tiltScale.toInt := by
  have hscale : tiltScale.toInt = 16384 := by decide
  rw [Int32.toInt_mul, hscale]
  exact Int.bmod_eq_of_le (by omega) (by omega)

theorem toInt_middle (h : -131071 ≤ target.toInt ∧ target.toInt ≤ 131071) :
    (target * tiltScale / tiltResolution).toInt = 4096 * target.toInt := by
  have hscale : tiltScale.toInt = 16384 := by decide
  have hresolution : tiltResolution.toInt = 4 := by decide
  rw [Int32.toInt_div_of_ne_right _ _ (by decide), toInt_scaled h, hscale, hresolution]
  exact Int.tdiv_eq_of_eq_mul_left (by decide) (by omega)

/-- The band is exact as long as the angle times the scale is a number at all. -/
theorem bandIsExact_of_fits (h : -131071 ≤ target.toInt ∧ target.toInt ≤ 131071) :
    BandIsExact target := by
  have hreach : (tiltHalfBand / tiltResolution).toInt = 2048 := by decide
  constructor
  case scaled => exact toInt_scaled h
  case middle => exact Int32.toInt_div_of_ne_right _ _ (by decide)
  case reach => decide
  case low =>
    rw [Int32.toInt_sub, toInt_middle h, hreach]
    exact Int.bmod_eq_of_le (by omega) (by omega)
  case high =>
    rw [Int32.toInt_add, toInt_middle h, hreach]
    exact Int.bmod_eq_of_le (by omega) (by omega)

private theorem bandIsExact (h : -4 ≤ target.toInt ∧ target.toInt ≤ 4) : BandIsExact target :=
  bandIsExact_of_fits (by omega)

/-- An angle that no card can have would not fit. -/
example : ¬BandIsExact 131072 := fun h => absurd h.scaled (by decide)

theorem toInt_neg_of_fits (h : -131071 ≤ target.toInt ∧ target.toInt ≤ 131071) :
    (-target).toInt = -target.toInt := by
  rw [Int32.toInt_neg]
  exact Int.bmod_eq_of_le (by omega) (by omega)

end Tilt

namespace Assembly

variable {assembly placed : Assembly} {reaction : Reaction} {position : Nat}

private theorem rules_openHandler (assembly : Assembly) (reaction : Reaction) :
    (assembly.openHandler reaction).layout.rules = assembly.layout.rules := by
  unfold openHandler
  cases reaction.isAdvanced <;> rfl

private theorem rules_growHandler (layout : Layout) (handler : Handler) :
    (layout.growHandler handler).rules = layout.rules := by
  unfold Layout.growHandler
  split <;> rfl

private theorem rules_of_place (h : assembly.place reaction = .ok (placed, position)) :
    placed.layout.rules = assembly.layout.rules := by
  unfold place at h
  split at h
  · cases h
    exact rules_openHandler assembly reaction
  · simp only [bind_eq_ok, pure_eq_ok, Prod.mk.injEq] at h
    obtain ⟨_, _, rfl, _⟩ := h
    exact rules_growHandler assembly.layout reaction.handler

/-- A rule can take its place before its code is written. -/
theorem exists_replace?_of_insert {layout next : Layout} {segment : Segment}
    (h : layout.insert position segment = .ok next) :
    position ≤ layout.size ∧ ∃ opened, layout.insert position .emptyBranch = .ok opened ∧
      opened.rules.length = layout.rules.length ∧
      (opened.bindRule position).replace? position segment = some (next.bindRule position) := by
  by_cases hle : position ≤ layout.size
  · rw [Layout.insert_eq_ok segment hle, Except.ok.injEq] at h
    refine ⟨hle, _, Layout.insert_eq_ok _ hle, List.length_map _, ?_⟩
    have hlt : position < (layout.segments.insertIdx position .emptyBranch).length := by
      rw [List.length_insertIdx_of_le_length hle]
      exact Nat.lt_succ_of_le hle
    subst h
    unfold Layout.replace? Layout.bindRule Layout.size
    rw [if_pos hlt, set_insertIdx_self]
  · rw [Layout.insert, if_neg hle] at h
    cases h

private theorem visits_of_realizes {passages : List Passage} {passage : Passage}
    (h : assembly.layout.Realizes passages)
    (hnodup : ((passages ++ [passage]).map Passage.number).Nodup)
    (hnotes : passage.reaction.InTables) :
    assembly.Visits passages.length passage.reaction := by
  obtain ⟨next, hadd, _⟩ := exists_add h hnodup
  have hsteps := hadd
  simp only [add, bind_eq_ok, pure_eq_ok] at hsteps
  obtain ⟨⟨placed, position⟩, hplace, branch, hbranch, layout, hinsert, rfl⟩ := hsteps
  obtain ⟨hle, opened, hopened, hlength, hreplace⟩ := exists_replace?_of_insert hinsert
  refine ⟨h.rules_lt_size, hnotes, placed, _, position, branch, opened, hplace, hle, hopened, ?_,
    hbranch, hreplace, hadd⟩
  rw [hlength, rules_of_place hplace, h.length_rules]

end Assembly

namespace Program

variable {program : Program}

private theorem exists_visits {before after : List Reaction} {reaction : Reaction}
    (h : program.reactions = .ok (before ++ reaction :: after)) :
    ∃ assembly, Assembly.ofReactions before = .ok assembly ∧
      assembly.Visits before.length reaction := by
  have hnotes := inTables_of_reactions h
  have hreaction : reaction.InTables := hnotes reaction (by simp)
  obtain ⟨passages, hpassages⟩ := exists_transcribes fun earlier hearlier =>
    hnotes earlier (List.mem_append_left _ hearlier)
  obtain ⟨branch, hbranch⟩ := Reaction.exists_branch hreaction
  let passage : Passage := ⟨before.length, reaction, branch, hbranch⟩
  have hpush : Transcribes (passages ++ [passage]) (before ++ [reaction]) := hpassages.push rfl
  obtain ⟨assembly, hassembly, hlayout⟩ := Assembly.exists_ofReactions passages hpassages.nodup
  rw [hpassages.reactions_eq] at hassembly
  have hvisits : assembly.Visits passages.length passage.reaction :=
    Assembly.visits_of_realizes hlayout hpush.nodup hreaction
  rw [hpassages.length_eq] at hvisits
  exact ⟨assembly, hassembly, hvisits⟩

theorem neverFaults (program : Program) : program.NeverFaults := by
  constructor
  case compile_ne =>
    intro fault hfault
    obtain ⟨_, _, _, _, _, _, _, hrefused⟩ := compile_eq_error_iff.mp hfault
    cases hrefused
  case visits => exact fun before reaction after => exists_visits
  case exact_band =>
    intro rule _ mode angle hevent
    obtain ⟨_, hlow, hhigh⟩ := Card.values_of_toEvent_tilt hevent
    rw [Int32.le_iff_toInt_le] at hlow hhigh
    have hbounds : -4 ≤ angle.toInt ∧ angle.toInt ≤ 4 := ⟨hlow, hhigh⟩
    have hneg : (-angle).toInt = -angle.toInt := toInt_neg_of_fits (by omega)
    exact ⟨hneg, bandIsExact hbounds, bandIsExact (by omega)⟩
  case lt_length =>
    intro script hscript rule segment hsegment
    obtain ⟨passages, assembly, _, _, _, hlayout, rfl⟩ := exists_of_compile hscript
    rw [Assembly.length_script]
    exact hlayout.rules_lt_size segment (List.mem_of_getElem? hsegment)

end Program

end VisualRules
