import VisualRules.Proofs.Meaning

/-!
# The tests of tilt cards

The nine cards of a mode share out the angles among them: every angle is what the test of one card
asks for, and of one only, but for the edges between two bands, which are nobody's. The bounds that
a test prints are those of the band, for every angle that can be computed with at all.
-/

namespace VisualRules

/-- An odd multiple of half a step, where the band of one card ends and that of the next begins. -/
def IsBandEdge (angle : Int) : Prop :=
  ∃ k, angle = 2048 * (2 * k + 1) ∧ -14336 ≤ angle ∧ angle ≤ 14336

/-- The band around a step as a test writes it. -/
def bandText (step : Int) : String :=
  " and ".intercalate
    ((if step = -4 then [] else [s!"angle > {4096 * step - 2048}"]) ++
      if step = 4 then [] else [s!"angle < {4096 * step + 2048}"])

namespace TiltMode

/-- The step that a card of the mode asks for. In roll mode the angle is counted the other way. -/
def step : TiltMode → Int32 → Int
  | roll, angle => -angle.toInt
  | _, angle => angle.toInt

/-- The test of a card of the mode, read off its text, is true of the readings. -/
def Accepts (mode : TiltMode) (readings : String → Int) (angle : Int32) : Prop :=
  testHolds? readings (Event.tilt mode angle).test = some true

/-- Whatever the angle reads, no two cards of the mode have a test that is true of it, and one card
has, unless it is an edge. The cards of the outermost steps have all that lies beyond the last
edges. -/
structure BandsTile (mode : TiltMode) (readings : String → Int) : Prop where
  answers : ∀ angle, (Event.tilt mode angle).InScale →
    ∃ answer, testHolds? readings (Event.tilt mode angle).test = some answer
  apart : ∀ angle other, (Event.tilt mode angle).InScale → (Event.tilt mode other).InScale →
    mode.Accepts readings angle → mode.Accepts readings other → angle = other
  missed_iff : (∀ angle, (Event.tilt mode angle).InScale → ¬mode.Accepts readings angle) ↔
    IsBandEdge (readings "angle")
  above : 14336 < readings "angle" → ∃ last, (Event.tilt mode last).InScale ∧
    mode.step last = 4 ∧ (Event.tilt mode last).test = "angle > 14336" ∧
      ∀ angle, (Event.tilt mode angle).InScale → (mode.Accepts readings angle ↔ angle = last)
  below : readings "angle" < -14336 → ∃ first, (Event.tilt mode first).InScale ∧
    mode.step first = -4 ∧ (Event.tilt mode first).test = "angle < -14336" ∧
      ∀ angle, (Event.tilt mode angle).InScale → (mode.Accepts readings angle ↔ angle = first)

/-- The bounds in the test of a card are computed without overflow and without a remainder, and are
those of the band. -/
structure PrintsBand (mode : TiltMode) (angle : Int32) : Prop where
  toInt_neg : (-angle).toInt = -angle.toInt
  exact : ∀ target ∈ [angle, -angle],
    BandIsExact target ∧ tiltResolution.toInt ∣ (target * tiltScale).toInt
  reach_exact : tiltResolution.toInt ∣ tiltHalfBand.toInt
  test_eq : (Event.tilt mode angle).test = bandText (mode.step angle)
  mirrored : (Event.tilt roll angle).test = (Event.tilt pitch (-angle)).test

end TiltMode

section Bands

variable {step other angle : Int}

private theorem InBand.unique (h : InBand step angle) (h' : InBand other angle)
    (hstep : -4 ≤ step ∧ step ≤ 4) (hother : -4 ≤ other ∧ other ≤ 4) : step = other := by
  unfold InBand at h h'
  omega

private theorem exists_inBand_iff :
    (∃ step, (-4 ≤ step ∧ step ≤ 4) ∧ InBand step angle) ↔ ¬IsBandEdge angle := by
  unfold InBand IsBandEdge
  constructor
  · rintro ⟨step, hstep, hband⟩ ⟨k, hk, hedges⟩
    omega
  · intro hedge
    -- The nearest step, or the outermost one on this side.
    refine ⟨max (-4) (min 4 ((angle + 2048) / 4096)), by omega, ?_⟩
    have hmultiple : angle = 2048 * (2 * ((angle - 2048) / 4096) + 1) →
        ¬(-14336 ≤ angle ∧ angle ≤ 14336) := fun heq hrange => hedge ⟨_, heq, hrange⟩
    omega

private theorem inBand_above (hangle : 14336 < angle) (hstep : -4 ≤ step ∧ step ≤ 4) :
    InBand step angle ↔ step = 4 := by
  unfold InBand
  omega

private theorem inBand_below (hangle : angle < -14336) (hstep : -4 ≤ step ∧ step ≤ 4) :
    InBand step angle ↔ step = -4 := by
  unfold InBand
  omega

end Bands

section Printing

variable {target : Int32} (h : -131071 ≤ target.toInt ∧ target.toInt ≤ 131071)

include h

private theorem testOf_tiltClauses :
    Clause.testOf (tiltClauses target) = bandText target.toInt := by
  rw [Clause.testOf, tiltClauses, bandText, List.map_append]
  congr 2
  · by_cases hend : target = -tiltResolution
    · rw [if_pos hend, if_pos (eq_neg_resolution_iff.mp hend), List.map_nil]
    · rw [if_neg hend, if_neg (mt eq_neg_resolution_iff.mpr hend), List.map_singleton,
        ← toInt_lower h]
      rfl
  · by_cases hend : target = tiltResolution
    · rw [if_pos hend, if_pos (eq_resolution_iff.mp hend), List.map_nil]
    · rw [if_neg hend, if_neg (mt eq_resolution_iff.mpr hend), List.map_singleton, ← toInt_upper h]
      rfl

private theorem dvd_scaled : tiltResolution.toInt ∣ (target * tiltScale).toInt := by
  rw [toInt_scaled h]
  exact Int.dvd_mul_of_dvd_right (by decide)

end Printing

namespace TiltMode

variable {mode : TiltMode} {readings : String → Int} {angle : Int32}

private theorem bounds_of_inScale (h : (Event.tilt mode angle).InScale) :
    -4 ≤ angle.toInt ∧ angle.toInt ≤ 4 :=
  ⟨Int32.le_iff_toInt_le.mp h.1, Int32.le_iff_toInt_le.mp h.2⟩

private theorem step_bounds (h : (Event.tilt mode angle).InScale) :
    -4 ≤ mode.step angle ∧ mode.step angle ≤ 4 := by
  have hbounds := bounds_of_inScale h
  cases mode with
  | tap => exact hbounds
  | roll => exact ⟨Int.neg_le_neg hbounds.2, Int.neg_le_of_neg_le hbounds.1⟩
  | pitch => exact hbounds

private theorem step_injective : Function.Injective mode.step := by
  intro angle other h
  apply Int32.toInt_inj.mp
  cases mode with
  | tap => exact h
  | roll => exact Int.neg_inj.mp h
  | pitch => exact h

private theorem exists_step_eq (mode : TiltMode) {step : Int} (h : -4 ≤ step ∧ step ≤ 4) :
    ∃ angle, (Event.tilt mode angle).InScale ∧ mode.step angle = step := by
  have hcard (value : Int) (hvalue : -4 ≤ value ∧ value ≤ 4) :
      (Int32.ofInt value).toInt = value ∧ (Event.tilt mode (.ofInt value)).InScale := by
    have htoInt : (Int32.ofInt value).toInt = value := Int32.toInt_ofInt_of_le (by omega) (by omega)
    refine ⟨htoInt, Int32.le_iff_toInt_le.mpr ?_, Int32.le_iff_toInt_le.mpr ?_⟩
    · rw [htoInt]
      exact hvalue.1
    · rw [htoInt]
      exact hvalue.2
  cases mode with
  | roll =>
    obtain ⟨htoInt, hscale⟩ := hcard (-step) (by omega)
    refine ⟨_, hscale, ?_⟩
    rw [TiltMode.step, htoInt, Int.neg_neg]
  | tap => exact ⟨_, (hcard step h).2, (hcard step h).1⟩
  | pitch => exact ⟨_, (hcard step h).2, (hcard step h).1⟩

section Accepts

variable (hmode : mode ≠ tap)

include hmode

private theorem isMet_iff : (Event.tilt mode angle).IsMet readings ↔
    InBand (mode.step angle) (readings "angle") := by
  cases mode with
  | tap => exact absurd rfl hmode
  | roll => rfl
  | pitch => rfl

private theorem exists_answer (readings : String → Int) (h : (Event.tilt mode angle).InScale) :
    ∃ answer, testHolds? readings (Event.tilt mode angle).test = some answer ∧
      (answer = true ↔ InBand (mode.step angle) (readings "angle")) := by
  have hset : (Event.tilt mode angle).isSet = true := by simpa [Event.isSet] using hmode
  refine ⟨_, Clause.testHolds?_testOf (Event.clauses_ne_nil hset) (Event.name_of_mem_clauses _), ?_⟩
  rw [List.all_eq_true, Event.holds_clauses_iff readings h, isMet_iff hmode]

private theorem accepts_iff (h : (Event.tilt mode angle).InScale) :
    mode.Accepts readings angle ↔ InBand (mode.step angle) (readings "angle") := by
  obtain ⟨answer, hanswer, hiff⟩ := exists_answer hmode readings h
  rw [Accepts, hanswer, Option.some_inj, hiff]

private theorem test_eq_bandText (h : -131071 ≤ angle.toInt ∧ angle.toInt ≤ 131071) :
    (Event.tilt mode angle).test = bandText (mode.step angle) := by
  cases mode with
  | tap => exact absurd rfl hmode
  | roll =>
    have hneg := toInt_neg_of_fits h
    rw [step, ← hneg]
    exact testOf_tiltClauses (by omega)
  | pitch => exact testOf_tiltClauses h

private theorem printsBand (h : -131071 ≤ angle.toInt ∧ angle.toInt ≤ 131071) :
    mode.PrintsBand angle := by
  have hneg := toInt_neg_of_fits h
  constructor
  case toInt_neg => exact hneg
  case exact =>
    rw [List.forall_mem_cons, List.forall_mem_singleton]
    exact ⟨⟨bandIsExact_of_fits h, dvd_scaled h⟩,
      ⟨bandIsExact_of_fits (by omega), dvd_scaled (by omega)⟩⟩
  case reach_exact => decide
  case test_eq => exact test_eq_bandText hmode h
  case mirrored => rfl

private theorem exists_accepts_iff :
    (∃ angle, (Event.tilt mode angle).InScale ∧ mode.Accepts readings angle) ↔
      ¬IsBandEdge (readings "angle") := by
  rw [← exists_inBand_iff]
  constructor
  · rintro ⟨angle, hscale, haccepts⟩
    exact ⟨_, step_bounds hscale, (accepts_iff hmode hscale).mp haccepts⟩
  · rintro ⟨step, hstep, hband⟩
    obtain ⟨angle, hscale, rfl⟩ := exists_step_eq mode hstep
    exact ⟨angle, hscale, (accepts_iff hmode hscale).mpr hband⟩

/-- Where the bands of all other cards are left behind, the card of the outermost step is the only
one. -/
theorem exists_only_accepts {outer : Int} (houter : -4 ≤ outer ∧ outer ≤ 4)
    (honly : ∀ step, -4 ≤ step ∧ step ≤ 4 →
      (InBand step (readings "angle") ↔ step = outer)) :
    ∃ card, (Event.tilt mode card).InScale ∧ mode.step card = outer ∧
      (Event.tilt mode card).test = bandText outer ∧
        ∀ angle, (Event.tilt mode angle).InScale →
          (mode.Accepts readings angle ↔ angle = card) := by
  obtain ⟨card, hscale, hcard⟩ := exists_step_eq mode houter
  have hbounds := bounds_of_inScale hscale
  refine ⟨card, hscale, hcard, ?_, ?_⟩
  · rw [← hcard]
    exact test_eq_bandText hmode (by omega)
  · intro angle hangle
    rw [accepts_iff hmode hangle, honly _ (step_bounds hangle), ← hcard, step_injective.eq_iff]

private theorem bandsTile : mode.BandsTile readings := by
  constructor
  case answers =>
    intro angle hscale
    obtain ⟨answer, hanswer, _⟩ := exists_answer hmode readings hscale
    exact ⟨answer, hanswer⟩
  case apart =>
    intro angle other hscale hscale' haccepts haccepts'
    have hband := (accepts_iff hmode hscale).mp haccepts
    have hband' := (accepts_iff hmode hscale').mp haccepts'
    exact step_injective (hband.unique hband' (step_bounds hscale) (step_bounds hscale'))
  case missed_iff =>
    rw [← not_iff_not, ← exists_accepts_iff hmode]
    simp
  case above =>
    intro hangle
    exact exists_only_accepts hmode (by decide) fun step => inBand_above hangle
  case below =>
    intro hangle
    exact exists_only_accepts hmode (by decide) fun step => inBand_below hangle

end Accepts

/-- The tests of the cards of a mode tile the angles, and print the bands that they are for. -/
theorem bands_tile (mode : TiltMode) (hmode : mode ≠ tap) :
    (∀ readings, mode.BandsTile readings) ∧
      ∀ angle : Int32, -131071 ≤ angle.toInt ∧ angle.toInt ≤ 131071 → mode.PrintsBand angle :=
  ⟨fun _ => bandsTile hmode, fun _ => printsBand hmode⟩

/-- The robot is rolled just beyond the last edge, and an angle no card can have, the largest one,
still has an exact band. -/
theorem bands_tile_of_roll :
    roll ≠ tap ∧ roll.BandsTile (fun _ => 14337) ∧
      (-131071 ≤ (131071 : Int32).toInt ∧ (131071 : Int32).toInt ≤ 131071) ∧
      roll.PrintsBand 131071 := by
  have hmode : roll ≠ tap := by decide
  have hangle : -131071 ≤ (131071 : Int32).toInt ∧ (131071 : Int32).toInt ≤ 131071 := by decide
  exact ⟨hmode, (bands_tile roll hmode).1 _, hangle, (bands_tile roll hmode).2 _ hangle⟩

/-- The card in the middle, and the card of the first step, which in roll mode has no upper
bound. -/
example : (Event.tilt pitch 0).test = "angle > -2048 and angle < 2048" ∧
    (Event.tilt roll (-4)).test = "angle > 14336" := by decide +kernel

end TiltMode

end VisualRules
