import VisualRules.Proofs.Conditions
import VisualRules.Proofs.NoFault

/-!
# The bands of a tilt

A tilt card asks for an angle in a band around its step. The bounds are computed in 32 bits, with a
product before a quotient, and are what they would be among the integers.
-/

namespace VisualRules

/-- The angle lies in the band around a step: half a step of 4096 to either side. At the outermost
steps the band is open on the outer side. -/
def InBand (step angle : Int) : Prop :=
  (step = -4 ∨ 4096 * step - 2048 < angle) ∧ (step = 4 ∨ angle < 4096 * step + 2048)

instance (step angle : Int) : Decidable (InBand step angle) :=
  inferInstanceAs (Decidable (_ ∧ _))

section Bounds

variable {target : Int32}

theorem toInt_lower (h : -131071 ≤ target.toInt ∧ target.toInt ≤ 131071) :
    (target * tiltScale / tiltResolution - tiltHalfBand / tiltResolution).toInt =
      4096 * target.toInt - 2048 := by
  rw [(bandIsExact_of_fits h).low, toInt_middle h]
  rfl

theorem toInt_upper (h : -131071 ≤ target.toInt ∧ target.toInt ≤ 131071) :
    (target * tiltScale / tiltResolution + tiltHalfBand / tiltResolution).toInt =
      4096 * target.toInt + 2048 := by
  rw [(bandIsExact_of_fits h).high, toInt_middle h]
  rfl

theorem eq_neg_resolution_iff : target = -tiltResolution ↔ target.toInt = -4 := by
  rw [← Int32.toInt_inj]
  rfl

theorem eq_resolution_iff : target = tiltResolution ↔ target.toInt = 4 := by
  rw [← Int32.toInt_inj]
  rfl

/-- The clauses of a tilt say that the angle is in the band. -/
theorem holds_tiltClauses_iff (h : -131071 ≤ target.toInt ∧ target.toInt ≤ 131071)
    (readings : Variable → Int) :
    (∀ clause ∈ tiltClauses target, clause.holds readings = true) ↔
      InBand target.toInt (readings .angle) := by
  rw [tiltClauses, List.forall_mem_append, InBand]
  apply and_congr
  · by_cases hend : target = -tiltResolution
    · rw [if_pos hend]
      simp [eq_neg_resolution_iff.mp hend]
    · rw [if_neg hend, List.forall_mem_singleton, Clause.holds_greater, toInt_lower h]
      simp [mt eq_neg_resolution_iff.mpr hend]
  · by_cases hend : target = tiltResolution
    · rw [if_pos hend]
      simp [eq_resolution_iff.mp hend]
    · rw [if_neg hend, List.forall_mem_singleton, Clause.holds_less, toInt_upper h]
      simp [mt eq_resolution_iff.mpr hend]

end Bounds

end VisualRules
