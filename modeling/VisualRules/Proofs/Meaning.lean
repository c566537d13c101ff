import VisualRules.Proofs.Redrawing
import VisualRules.Proofs.TestReading
import VisualRules.Proofs.TiltBands
import VisualRules.Proofs.Words

namespace VisualRules

/-- A sensor tested for `below` reads less than the low threshold, one tested for `above` more than
the high one. -/
def SensorBand.IsMet {n : Nat} (band : SensorBand n) (reading : Nat → Int) : Prop :=
  ∀ (sensor : Nat) (h : sensor < n),
    (band.sensors[sensor] = .below → reading sensor < band.low.toInt) ∧
      (band.sensors[sensor] = .above → band.high.toInt < reading sensor)

def Event.IsMet (readings : String → Int) : Event → Prop
  | buttons pressed =>
    ∀ pair ∈ ["button.forward", "button.left", "button.backward", "button.right",
      "button.center"].zip pressed.toList, pair.2 = true → readings pair.1 = 1
  | proximity band => band.IsMet fun sensor => readings s!"prox.horizontal[{sensor}]"
  | groundProximity band => band.IsMet fun sensor => readings s!"prox.ground.delta[{sensor}]"
  | tap | clap | timeout => True
  | tilt .tap _ => True
  | tilt .roll angle => InBand (-angle.toInt) (readings "angle")
  | tilt .pitch angle => InBand angle.toInt (readings "angle")

def StateFilter.IsMet (readings : String → Int) (filter : StateFilter) : Prop :=
  ∀ (slot : Nat) (h : slot < stateSlots),
    (filter.slots[slot] = .on → readings s!"state[{slot}]" = 1) ∧
      (filter.slots[slot] = .off → readings s!"state[{slot}]" = 0)

/-- The code asks for one test, the test is made of clauses only, and it is true of the readings
that the cards ask for and of no others. -/
def TestMeans (code : String) (isMet : (String → Int) → Prop) : Prop :=
  ∃ test, testLines code = [testLine test] ∧ ∀ readings, ∃ answer,
    testHolds? readings test = some answer ∧ (answer = true ↔ isMet readings)

namespace SensorBand

variable {n : Nat} {band : SensorBand n} {ofSensor : Nat → Variable}

private theorem exists_sensor_of_mem_clauses {clause : Clause}
    (h : clause ∈ band.clauses ofSensor) :
    ∃ sensor < n, clause.operand = ofSensor sensor := by
  have hall : ∀ clause ∈ band.clauses ofSensor, ∃ sensor < n, clause.operand = ofSensor sensor := by
    rw [clauses, forall_mem_filterMap_zipIdx]
    intro sensor hsensor clause hclause
    refine ⟨sensor, hsensor, ?_⟩
    cases htest : band.sensors[sensor] with
    | any => rw [htest] at hclause; cases hclause
    | below => rw [htest] at hclause; cases hclause; rfl
    | above => rw [htest] at hclause; cases hclause; rfl
  exact hall clause h

private theorem holds_clauses_iff (readings : Variable → Int) :
    (∀ clause ∈ band.clauses ofSensor, clause.holds readings = true) ↔
      band.IsMet fun sensor => readings (ofSensor sensor) := by
  rw [clauses, forall_mem_filterMap_zipIdx]
  refine forall_congr' fun sensor => forall_congr' fun hsensor => ?_
  cases htest : band.sensors[sensor] with
  | any => simp [clause?]
  | below => simp [clause?, Clause.holds_less]
  | above => simp [clause?, Clause.holds_greater]

end SensorBand

section Readings

variable (readings : String → Int)

private theorem StateFilter.holds_clauses_iff (filter : StateFilter) :
    (∀ clause ∈ filter.clauses, clause.holds (fun operand => readings operand.text) = true) ↔
      filter.IsMet readings := by
  rw [clauses, forall_mem_filterMap_zipIdx]
  refine forall_congr' fun slot => forall_congr' fun hslot => ?_
  have htext : (Variable.state slot).text = s!"state[{slot}]" := rfl
  cases hbit : filter.slots[slot] with
  | any => simp [StateSlot.bit?]
  | on => simp [StateSlot.bit?, Clause.holds_equal, htext]
  | off => simp [StateSlot.bit?, Clause.holds_equal, htext]

private theorem Event.holds_buttons_iff (pressed : Vector Bool 5) :
    (∀ clause ∈ (buttons pressed).clauses,
      clause.holds (fun operand => readings operand.text) = true) ↔
        (buttons pressed).IsMet readings := by
  have hclauses : (buttons pressed).clauses = ((Button.all.zip pressed.toList).filter (·.2)).map
      fun pair => ⟨.button pair.1, .equal, 1⟩ := rfl
  have hnames : ["button.forward", "button.left", "button.backward", "button.right",
      "button.center"] = Button.all.map fun button => (Variable.button button).text := by decide
  rw [hclauses, IsMet, hnames, List.zip_map_left, List.forall_mem_map, List.forall_mem_map]
  simp only [List.mem_filter, and_imp, Clause.holds_equal]
  rfl

theorem Event.holds_clauses_iff {event : Event} (hscale : event.InScale) :
    (∀ clause ∈ event.clauses, clause.holds (fun operand => readings operand.text) = true) ↔
      event.IsMet readings := by
  cases event with
  | buttons pressed => exact holds_buttons_iff readings pressed
  | proximity band => exact band.holds_clauses_iff _
  | groundProximity band => exact band.holds_clauses_iff _
  | tap | clap | timeout => simp [clauses, IsMet]
  | tilt mode angle =>
    have hbounds : -4 ≤ angle.toInt ∧ angle.toInt ≤ 4 :=
      ⟨Int32.le_iff_toInt_le.mp hscale.1, Int32.le_iff_toInt_le.mp hscale.2⟩
    cases mode with
    | tap => simp [clauses, IsMet]
    | roll =>
      have hneg : (-angle).toInt = -angle.toInt := toInt_neg_of_fits (by omega)
      rw [clauses, holds_tiltClauses_iff (by omega), hneg]
      rfl
    | pitch => exact holds_tiltClauses_iff (by omega) _

end Readings

section Names

private theorem SensorBand.name_of_mem_clauses {n : Nat} {band : SensorBand n}
    {ofSensor : Nat → Variable} (hnames : ∀ sensor < n, (ofSensor sensor).text ∈ variableNames) :
    ∀ clause ∈ band.clauses ofSensor, clause.operand.text ∈ variableNames := by
  intro clause hclause
  obtain ⟨sensor, hsensor, hoperand⟩ := exists_sensor_of_mem_clauses hclause
  rw [hoperand]
  exact hnames sensor hsensor

theorem Event.name_of_mem_clauses (event : Event) :
    ∀ clause ∈ event.clauses, clause.operand.text ∈ variableNames := by
  have htilt (target : Int32) : ∀ clause ∈ tiltClauses target,
      clause.operand.text ∈ variableNames := by
    intro clause hclause
    have hsymbols := symbols_of_mem_tiltClauses target clause hclause
    cases hoperand : clause.operand with
    | angle => decide
    | _ => rw [hoperand] at hsymbols; cases hsymbols
  cases event with
  | buttons pressed =>
    have hnames (button : Button) : (Variable.button button).text ∈ variableNames := by
      cases button <;> decide
    intro clause hclause
    obtain ⟨⟨button, _⟩, _, rfl⟩ := List.mem_map.mp hclause
    exact hnames button
  | proximity band => exact SensorBand.name_of_mem_clauses (by decide)
  | groundProximity band => exact SensorBand.name_of_mem_clauses (by decide)
  | tap | clap | timeout => exact List.forall_mem_nil _
  | tilt mode angle =>
    cases mode with
    | tap => exact List.forall_mem_nil _
    | roll => exact htilt _
    | pitch => exact htilt _

private theorem StateFilter.name_of_mem_clauses (filter : StateFilter) :
    ∀ clause ∈ filter.clauses, clause.operand.text ∈ variableNames := by
  have hnames : ∀ slot < stateSlots, (Variable.state slot).text ∈ variableNames := by decide
  intro clause hclause
  obtain ⟨slot, hslot, hoperand, _⟩ := exists_slot_of_mem_clauses clause hclause
  rw [hoperand]
  exact hnames slot hslot

end Names

namespace Reaction

variable {reaction : Reaction} {branch : Branch} {clauses : List Clause}

private theorem testMeans_of_condition {isMet : (String → Int) → Prop}
    (h : reaction.branch = .ok branch) (hcondition : reaction.condition? = some clauses)
    (hnames : ∀ clause ∈ clauses, clause.operand.text ∈ variableNames)
    (hholds : ∀ readings : String → Int,
      (∀ clause ∈ clauses, clause.holds (fun operand => readings operand.text) = true) ↔
        isMet readings) :
    TestMeans branch.text isMet := by
  refine ⟨Clause.testOf clauses, ?_, fun readings => ?_⟩
  · rw [testLines_of_branch h, hcondition]
    rfl
  · refine ⟨_, Clause.testHolds?_testOf (clauses_ne_nil hcondition) hnames, ?_⟩
    rw [List.all_eq_true, hholds]

/-- The test of a rule is true of exactly the readings that its cards ask for: those of the event and
of the filter, or of the filter alone if the event asks for nothing. -/
theorem test_means_cards (hscale : reaction.event.InScale) (htables : reaction.InTables) :
    ∃ branch, reaction.branch = .ok branch ∧
      (reaction.event.isSet = true → TestMeans branch.text fun readings =>
        reaction.event.IsMet readings ∧
          ∀ filter ∈ reaction.stateFilter, filter.IsMet readings) ∧
      (reaction.event.isSet = false → ∀ filter ∈ reaction.stateFilter, filter.isSet = true →
        TestMeans branch.text fun readings => filter.IsMet readings) := by
  obtain ⟨branch, hbranch⟩ := exists_branch htables
  refine ⟨branch, hbranch, ?_, ?_⟩
  · intro hset
    have hcondition : reaction.condition? =
        some (reaction.event.clauses ++ reaction.stateFilter.elim [] StateFilter.clauses) := by
      rw [condition?, if_pos hset]
    apply testMeans_of_condition hbranch hcondition
    · rw [List.forall_mem_append]
      refine ⟨reaction.event.name_of_mem_clauses, ?_⟩
      cases reaction.stateFilter with
      | none => exact List.forall_mem_nil _
      | some filter => exact filter.name_of_mem_clauses
    · intro readings
      rw [List.forall_mem_append, Event.holds_clauses_iff readings hscale]
      cases reaction.stateFilter with
      | none => simp
      | some filter => simp [filter.holds_clauses_iff readings]
  · intro hset filter hfilter hasks
    have hcondition : reaction.condition? = some filter.clauses := by
      rw [condition?, hset, hfilter, Option.filter_some_pos hasks]
      rfl
    exact testMeans_of_condition hbranch hcondition filter.name_of_mem_clauses
      fun readings => filter.holds_clauses_iff readings

/-- The robot is rolled to the first step of the scale, where the angle has no upper bound, while one
state bit is set and another one is not. -/
def songInTheDark : Reaction where
  event := .tilt .roll (-4)
  stateFilter := some ⟨#v[.on, .any, .off, .any]⟩
  actions := [.sound #v[⟨4, 2⟩, ⟨0, 0⟩, ⟨0, 0⟩, ⟨0, 0⟩, ⟨0, 0⟩, ⟨0, 0⟩]]
  isAdvanced := true

theorem test_means_cards_of_songInTheDark :
    songInTheDark.event.InScale ∧ songInTheDark.InTables ∧
      ∃ branch, songInTheDark.branch = .ok branch ∧
        (songInTheDark.event.isSet = true → TestMeans branch.text fun readings =>
          songInTheDark.event.IsMet readings ∧
            ∀ filter ∈ songInTheDark.stateFilter, filter.IsMet readings) ∧
        (songInTheDark.event.isSet = false → ∀ filter ∈ songInTheDark.stateFilter,
          filter.isSet = true → TestMeans branch.text fun readings => filter.IsMet readings) := by
  have hscale : songInTheDark.event.InScale := ⟨by decide, by decide⟩
  have htables : songInTheDark.InTables := by
    rw [InTables, songInTheDark, List.forall_mem_singleton]
    change ∀ note ∈ Vector.toList _, Note.InTables note
    decide
  exact ⟨hscale, htables, test_means_cards hscale htables⟩

end Reaction

end VisualRules
