namespace VisualRules

inductive Feature
  | sound
  | timer
  | microphone
  | tiltAngle
  deriving DecidableEq, Repr

structure FeatureSet where
  sound : Bool := false
  timer : Bool := false
  microphone : Bool := false
  tiltAngle : Bool := false
  deriving DecidableEq, Repr

namespace FeatureSet

def empty : FeatureSet := {}

def insert (features : FeatureSet) : Feature → FeatureSet
  | .sound => { features with sound := true }
  | .timer => { features with timer := true }
  | .microphone => { features with microphone := true }
  | .tiltAngle => { features with tiltAngle := true }

def insertAll (features : FeatureSet) (added : List Feature) : FeatureSet :=
  added.foldl insert features

def contains (features : FeatureSet) : Feature → Bool
  | .sound => features.sound
  | .timer => features.timer
  | .microphone => features.microphone
  | .tiltAngle => features.tiltAngle

def isEmpty (features : FeatureSet) : Bool := features = empty

@[ext] theorem ext_contains {features others : FeatureSet}
    (h : ∀ feature, features.contains feature = others.contains feature) : features = others := by
  cases features; cases others
  simpa [contains] using ⟨h .sound, h .timer, h .microphone, h .tiltAngle⟩

@[simp] theorem contains_empty (feature : Feature) : empty.contains feature = false := by
  cases feature <;> rfl

theorem contains_insert (features : FeatureSet) (added feature : Feature) :
    (features.insert added).contains feature =
      (decide (feature = added) || features.contains feature) := by
  cases added <;> cases feature <;> simp [insert, contains]

theorem contains_insertAll (features : FeatureSet) (added : List Feature) (feature : Feature) :
    (features.insertAll added).contains feature =
      (added.contains feature || features.contains feature) := by
  induction added generalizing features with
  | nil => simp [insertAll]
  | cons first rest ih =>
    have := ih (features.insert first)
    simp only [insertAll, List.foldl_cons] at this ⊢
    rw [this, contains_insert]
    cases h : decide (feature = first) <;> simp_all

end FeatureSet

end VisualRules
