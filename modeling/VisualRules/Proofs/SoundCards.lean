import VisualRules.Proofs.Redrawing

/-!
# Sound cards with odd numbers

A number on a sound card packs a pitch and a duration of the tables. The card is read by the two
low bytes of its numbers, so a number with something above them passes for a note that it is not,
and the card that is read does not say what the card said.
-/

namespace VisualRules

namespace Note

/-- The number packs a pitch and a duration of the tables, and nothing else. -/
def IsPacked (value : Int32) : Prop :=
  ∃ pitch duration : Int32, (0 ≤ pitch ∧ pitch ≤ 4) ∧ (0 ≤ duration ∧ duration ≤ 2) ∧
    value = pitch ||| duration <<< 8

def lowBytes (value : Int32) : Int32 := value &&& 0xffff

end Note

def soundCard (values : Vector Int32 soundNotes) : Card := .ofKind .sound values.toList

/-- Of each number on the sound card a part is looked at. The card is read exactly if each of these
parts packs a note, and then its notes give these parts back. Else the first number whose part packs
no note is blamed. -/
structure JudgesNotes (part : Int32 → Int32) (values : Vector Int32 soundNotes) : Prop where
  accepts_iff : (∃ action, (soundCard values).toAction = .ok action) ↔
    ∀ value ∈ values.toList, Note.IsPacked (part value)
  gives_back : ∀ action, (soundCard values).toAction = .ok action →
    ∃ notes, action = .sound notes ∧ notes.map Note.code = values.map part
  refuses : ∀ before value after, values.toList = before ++ value :: after →
    (∀ earlier ∈ before, Note.IsPacked (part earlier)) → ¬Note.IsPacked (part value) →
      (soundCard values).toAction = .error (.noteOutOfRange before.length value)

namespace Note

variable {value : Int32}

private theorem toInt_lowBytes (value : Int32) : (lowBytes value).toInt = value.toInt % 65536 :=
  toInt_and_of_mask (n := 16) (by decide) (by decide) value

private theorem toInt_pack {pitch duration : Int32} (hpitch : 0 ≤ pitch ∧ pitch ≤ 4)
    (hduration : 0 ≤ duration ∧ duration ≤ 2) :
    (pitch ||| duration <<< 8).toInt = pitch.toInt + 256 * duration.toInt := by
  have hpitches : pitch ∈ [0, 1, 2, 3, 4] := by
    simp [Int32.le_iff_toInt_le, ← Int32.toInt_inj] at hpitch ⊢
    omega
  have hdurations : duration ∈ [0, 1, 2] := by
    simp [Int32.le_iff_toInt_le, ← Int32.toInt_inj] at hduration ⊢
    omega
  have hall : ([0, 1, 2, 3, 4] : List Int32).all fun pitch =>
      ([0, 1, 2] : List Int32).all fun duration =>
        (pitch ||| duration <<< 8).toInt = pitch.toInt + 256 * duration.toInt := by decide
  have hone := List.all_eq_true.mp (List.all_eq_true.mp hall pitch hpitches) duration hdurations
  exact of_decide_eq_true hone

private theorem isCode_iff_bounds (value : Int32) :
    IsCode value ↔ value.toInt % 256 < 5 ∧ value.toInt / 256 % 256 < 3 := by
  have hfive : (5 : Int32).toInt = 5 := by decide
  have hthree : (3 : Int32).toInt = 3 := by decide
  rw [IsCode, Int32.lt_iff_toInt_lt, Int32.lt_iff_toInt_lt, toInt_and_byte, toInt_and_byte,
    toInt_shift_byte, hfive, hthree]

/-- A number is a packed note if its low bytes are one and there is nothing above them. -/
theorem isPacked_iff (value : Int32) : IsPacked value ↔ IsCode value ∧ lowBytes value = value := by
  rw [isCode_iff_bounds, ← Int32.toInt_inj, toInt_lowBytes]
  constructor
  · rintro ⟨pitch, duration, hpitch, hduration, rfl⟩
    rw [toInt_pack hpitch hduration]
    simp [Int32.le_iff_toInt_le] at hpitch hduration
    omega
  · intro ⟨⟨hpitch, hduration⟩, hlow⟩
    have hbounds : ((0 : Int32) ≤ value &&& 0xff ∧ value &&& (0xff : Int32) ≤ 4) ∧
        (0 : Int32) ≤ value >>> 8 &&& 0xff ∧ value >>> 8 &&& (0xff : Int32) ≤ 2 := by
      simp [Int32.le_iff_toInt_le, toInt_and_byte, toInt_shift_byte]
      omega
    refine ⟨_, _, hbounds.1, hbounds.2, ?_⟩
    rw [← Int32.toInt_inj, toInt_pack hbounds.1 hbounds.2, toInt_and_byte, toInt_and_byte,
      toInt_shift_byte]
    omega

private theorem isPacked_lowBytes_iff (value : Int32) :
    IsPacked (lowBytes value) ↔ IsCode value := by
  rw [isPacked_iff, isCode_iff_bounds, isCode_iff_bounds, ← Int32.toInt_inj,
    toInt_lowBytes (lowBytes value), toInt_lowBytes]
  omega

private theorem IsPacked.isCode (h : IsPacked value) : IsCode value := ((isPacked_iff value).mp h).1

private theorem IsPacked.lowBytes_eq (h : IsPacked value) : lowBytes value = value :=
  ((isPacked_iff value).mp h).2

private theorem code_ofCode (value : Int32) : (ofCode value).code = lowBytes value := by
  rw [← Int32.toInt_inj, toInt_code, toInt_lowBytes]
  simp only [ofCode, UInt8.toNat_ofNat']
  omega

end Note

namespace Card

variable {values : Vector Int32 soundNotes}

private theorem toAction_soundCard (values : Vector Int32 soundNotes) :
    (soundCard values).toAction = Action.sound <$> notes values := by
  have hvalues : (ofKind .sound values.toList).values = values.toList := rfl
  rw [toAction, soundCard, kindFor_ofKind (by rfl), ok_bind]
  simp only [exactly_of_toList hvalues, ok_bind]
  rfl

private theorem toAction_of_isCode (h : ∀ value ∈ values.toList, Note.IsCode value) :
    (soundCard values).toAction = .ok (.sound (values.map Note.ofCode)) := by
  rw [toAction_soundCard, notes, find?_outside_eq_none h]
  rfl

private theorem toAction_of_first {before after : List Int32} {value : Int32}
    (hvalues : values.toList = before ++ value :: after)
    (hbefore : ∀ earlier ∈ before, Note.IsCode earlier) (h : ¬Note.IsCode value) :
    (soundCard values).toAction = .error (.noteOutOfRange before.length value) := by
  rw [toAction_soundCard, notes_of_first hvalues hbefore h]
  rfl

private theorem isCode_of_toAction {action : Action}
    (h : (soundCard values).toAction = .ok action) :
    ∀ value ∈ values.toList, Note.IsCode value := by
  rcases forall_or_exists_first Note.IsCode values.toList with
    hall | ⟨before, value, after, hvalues, hbefore, hvalue⟩
  · exact hall
  · rw [toAction_of_first hvalues hbefore hvalue] at h
    cases h

/-- A sound card is judged by the low bytes of its numbers. -/
theorem judgesNotes_lowBytes (values : Vector Int32 soundNotes) :
    JudgesNotes Note.lowBytes values := by
  constructor
  case accepts_iff =>
    simp only [Note.isPacked_lowBytes_iff]
    exact ⟨fun ⟨_, haction⟩ => isCode_of_toAction haction, fun hall => ⟨_, toAction_of_isCode hall⟩⟩
  case gives_back =>
    intro action haction
    rw [toAction_of_isCode (isCode_of_toAction haction), Except.ok.injEq] at haction
    refine ⟨_, haction.symm, ?_⟩
    rw [Vector.map_map]
    congr 1
    exact funext Note.code_ofCode
  case refuses =>
    simp only [Note.isPacked_lowBytes_iff]
    intro before value after hvalues hbefore hvalue
    exact toAction_of_first hvalues hbefore hvalue

/-- A sound card is judged by its numbers as a whole unless the first of them that is no packed note
passes for one. -/
theorem judgesNotes_id_iff (values : Vector Int32 soundNotes) :
    JudgesNotes id values ↔ ∀ before value after, values.toList = before ++ value :: after →
      (∀ earlier ∈ before, Note.IsPacked earlier) → Note.IsPacked (Note.lowBytes value) →
        Note.IsPacked value := by
  constructor
  · intro hjudges before value after hvalues hbefore hlow
    by_contra hvalue
    have hblamed := hjudges.refuses before value after hvalues hbefore hvalue
    rcases forall_or_exists_first Note.IsCode values.toList with
      hall | ⟨earlier, other, later, hsplit, hearlier, hother⟩
    · rw [toAction_of_isCode hall] at hblamed
      cases hblamed
    · rw [toAction_of_first hsplit hearlier hother] at hblamed
      obtain ⟨_, rfl⟩ : earlier.length = before.length ∧ other = value := by simpa using hblamed
      exact hother ((Note.isPacked_lowBytes_iff other).mp hlow)
  · intro hclean
    have hpacked (hall : ∀ value ∈ values.toList, Note.IsCode value) :
        ∀ value ∈ values.toList, Note.IsPacked value := by
      rcases forall_or_exists_first Note.IsPacked values.toList with
        h | ⟨before, value, after, hvalues, hbefore, hvalue⟩
      · exact h
      · have hlow := (Note.isPacked_lowBytes_iff value).mpr (hall value (by simp [hvalues]))
        exact absurd (hclean before value after hvalues hbefore hlow) hvalue
    constructor
    case accepts_iff =>
      constructor
      · rintro ⟨action, haction⟩
        exact hpacked (isCode_of_toAction haction)
      · intro hall
        exact ⟨_, toAction_of_isCode fun value hvalue => (hall value hvalue).isCode⟩
    case gives_back =>
      intro action haction
      obtain ⟨notes, rfl, hnotes⟩ := (judgesNotes_lowBytes values).gives_back action haction
      refine ⟨notes, rfl, hnotes.trans ?_⟩
      apply Vector.map_congr_left
      intro value hvalue
      exact (hpacked (isCode_of_toAction haction) value (by simpa using hvalue)).lowBytes_eq
    case refuses =>
      intro before value after hvalues hbefore hvalue
      apply toAction_of_first hvalues fun earlier hearlier => (hbefore earlier hearlier).isCode
      exact fun hcode => hvalue
        (hclean before value after hvalues hbefore ((Note.isPacked_lowBytes_iff value).mpr hcode))

/-- A sound card is judged by the low bytes of its numbers, and that is by the numbers themselves
exactly if the first of them that is no packed note does not pass for one. -/
theorem judged_by_low_bytes (values : Vector Int32 soundNotes) :
    JudgesNotes Note.lowBytes values ∧
      (JudgesNotes id values ↔ ∀ before value after, values.toList = before ++ value :: after →
        (∀ earlier ∈ before, Note.IsPacked earlier) → Note.IsPacked (Note.lowBytes value) →
          Note.IsPacked value) :=
  ⟨judgesNotes_lowBytes values, judgesNotes_id_iff values⟩

/-- The third number has a bit above the two bytes. The card is read, as if the bit were not set. -/
theorem not_judgesNotes_of_highBit :
    (soundCard #v[0, 0, 65536, 0, 0, 0]).toAction = .ok (.sound #v[⟨0, 0⟩, ⟨0, 0⟩, ⟨0, 0⟩, ⟨0, 0⟩,
      ⟨0, 0⟩, ⟨0, 0⟩]) ∧ ¬JudgesNotes id #v[0, 0, 65536, 0, 0, 0] := by
  have hzero : Note.IsPacked 0 := ⟨0, 0, by decide, by decide, by decide⟩
  refine ⟨by decide +kernel, fun hjudges => ?_⟩
  have hpacked := (judged_by_low_bytes #v[0, 0, 65536, 0, 0, 0]).2.mp hjudges [0, 0] 65536 [0, 0, 0]
    rfl (by simp [hzero]) hzero
  exact absurd hpacked.lowBytes_eq (by decide)

end Card

end VisualRules
