import Mathlib.Data.Nat.Digits.Defs
import VisualRules.Json.Number

/-!
# Numbers are read as they are spelled

A number is read part by part, and each part as far as it goes. So a number is read up to the first
character that goes on with none of them, and each spelling has exactly one reading.
-/

namespace VisualRules.Json

def IsDigits (cs : List Char) : Prop := cs ≠ [] ∧ ∀ c ∈ cs, c.isDigit = true

/-- The digits in front of a fraction. Only zero begins with a zero. -/
def IsWhole (cs : List Char) : Prop := IsDigits cs ∧ (cs.head? = some '0' → cs = ['0'])

def IsFraction (cs : List Char) : Prop := cs = [] ∨ ∃ digits, IsDigits digits ∧ cs = '.' :: digits

def IsExponent (cs : List Char) : Prop :=
  cs = [] ∨ ∃ marker sign digits, (marker = 'e' ∨ marker = 'E') ∧
    (sign = [] ∨ sign = ['+'] ∨ sign = ['-']) ∧ IsDigits digits ∧ cs = marker :: sign ++ digits

/-- The characters spell a number, and this is its value. -/
inductive SpellsNumber : Json → List Char → Prop
  | parts {sign whole fraction exponent : List Char} (sign_eq : sign = [] ∨ sign = ['-'])
    (isWhole : IsWhole whole) (isFraction : IsFraction fraction)
    (isExponent : IsExponent exponent) :
    SpellsNumber (ofNumeral sign whole (fraction ++ exponent))
      (sign ++ whole ++ fraction ++ exponent)

def EndsDigits (rest : List Char) : Prop := ∀ c ∈ rest.head?, c.isDigit = false

/-- What comes next does not go on with a number. -/
def EndsNumber (rest : List Char) : Prop :=
  ∀ c ∈ rest.head?, c.isDigit = false ∧ c ≠ '.' ∧ c ≠ 'e' ∧ c ≠ 'E'

section Reading

variable {cs digits rest : List Char}

private theorem EndsNumber.endsDigits (h : EndsNumber rest) :
    EndsDigits rest := fun c hc => (h c hc).1

private theorem readDigits_append (h : IsDigits digits) (hrest : EndsDigits rest) :
    readDigits (digits ++ rest) = some (digits, rest) := by
  have hend : rest.takeWhile Char.isDigit = [] ∧ rest.dropWhile Char.isDigit = rest := by
    cases rest with
    | nil => simp
    | cons c rest => simp [hrest c rfl]
  rw [readDigits, List.takeWhile_append_of_pos h.2, List.dropWhile_append_of_pos h.2, hend.1,
    hend.2, List.append_nil, if_neg h.1]

private theorem isDigits_of_readDigits (h : readDigits cs = some (digits, rest)) :
    IsDigits digits ∧ cs = digits ++ rest := by
  unfold readDigits at h
  split at h
  next => cases h
  next hne =>
    cases h
    exact ⟨⟨hne, List.all_eq_true.mp List.all_takeWhile⟩, List.takeWhile_append_dropWhile.symm⟩

private theorem IsDigits.exists_eq_cons (h : IsDigits digits) :
    ∃ c cs, digits = c :: cs ∧ c.isDigit = true := by
  obtain ⟨c, cs, rfl⟩ := List.exists_cons_of_ne_nil h.1
  exact ⟨c, cs, rfl, h.2 c (by simp)⟩

/-- Digits follow a sign, so where none is given none is taken. -/
theorem readSign_append {sign : List Char} (h : IsDigits digits)
    (hsign : sign = [] ∨ sign = ['-']) : readSign (sign ++ (digits ++ rest)) =
      (sign, digits ++ rest) := by
  obtain ⟨c, cs, rfl, hc⟩ := h.exists_eq_cons
  have hminus : c ≠ '-' := by
    rintro rfl
    cases hc
  obtain rfl | rfl := hsign <;> simp [readSign, hminus]

private theorem eq_of_readSign {sign : List Char} (h : readSign cs = (sign, rest)) :
    (sign = [] ∨ sign = ['-']) ∧ cs = sign ++ rest := by
  unfold readSign at h
  split at h <;> cases h <;> simp

private theorem readExponentSign_append {sign : List Char} (h : IsDigits digits)
    (hsign : sign = [] ∨ sign = ['+'] ∨ sign = ['-']) :
    readExponentSign (sign ++ (digits ++ rest)) = (sign, digits ++ rest) := by
  obtain ⟨c, cs, rfl, hc⟩ := h.exists_eq_cons
  have hsign_c : c ≠ '+' ∧ c ≠ '-' := by
    constructor <;> rintro rfl <;> cases hc
  obtain rfl | rfl | rfl := hsign <;> simp [readExponentSign, readSign, hsign_c]

private theorem eq_of_readExponentSign {sign : List Char} (h : readExponentSign cs = (sign, rest)) :
    (sign = [] ∨ sign = ['+'] ∨ sign = ['-']) ∧ cs = sign ++ rest := by
  unfold readExponentSign at h
  split at h
  next =>
    cases h
    simp
  next =>
    obtain ⟨rfl | rfl, hcs⟩ := eq_of_readSign h <;> simp [hcs]

private theorem readWhole_append (h : IsWhole digits) (hrest : EndsDigits rest) :
    readWhole (digits ++ rest) = some (digits, rest) := by
  have hzero : ¬(digits.head? = some '0' ∧ digits ≠ ['0']) := fun hzero => hzero.2 (h.2 hzero.1)
  simp [readWhole, readDigits_append h.1 hrest, hzero]

private theorem isWhole_of_readWhole (h : readWhole cs = some (digits, rest)) :
    IsWhole digits ∧ cs = digits ++ rest := by
  unfold readWhole at h
  obtain ⟨⟨taken, left⟩, hdigits, h⟩ := Option.bind_eq_some_iff.mp h
  obtain ⟨htaken, hcs⟩ := isDigits_of_readDigits hdigits
  dsimp only at h
  split at h
  next => cases h
  next hzero =>
    cases h
    exact ⟨⟨htaken, fun hhead => not_not.mp fun hne => hzero ⟨hhead, hne⟩⟩, hcs⟩

private theorem readFraction_append {fraction : List Char} (h : IsFraction fraction)
    (hrest : EndsDigits rest) (hpoint : ∀ c ∈ rest.head?, c ≠ '.') :
    readFraction (fraction ++ rest) = some (fraction, rest) := by
  obtain rfl | ⟨digits, hdigits, rfl⟩ := h
  · cases rest with
    | nil => rfl
    | cons c rest => simp [readFraction, hpoint c rfl]
  · simp [readFraction, readDigits_append hdigits hrest]

private theorem isFraction_of_readFraction {fraction : List Char}
    (h : readFraction cs = some (fraction, rest)) :
    IsFraction fraction ∧ cs = fraction ++ rest := by
  unfold readFraction at h
  split at h
  next cs =>
    obtain ⟨⟨digits, left⟩, hdigits, hpure⟩ := Option.bind_eq_some_iff.mp h
    cases hpure
    obtain ⟨isDigits, rfl⟩ := isDigits_of_readDigits hdigits
    exact ⟨.inr ⟨digits, isDigits, rfl⟩, rfl⟩
  next =>
    cases h
    exact ⟨.inl rfl, rfl⟩

private theorem readExponent_append {exponent : List Char} (h : IsExponent exponent)
    (hrest : EndsNumber rest) : readExponent (exponent ++ rest) = some (exponent, rest) := by
  obtain rfl | ⟨marker, sign, digits, hmarker, hsign, hdigits, rfl⟩ := h
  · cases rest with
    | nil => rfl
    | cons c rest =>
      obtain ⟨_, _, he, hE⟩ := hrest c rfl
      simp [readExponent, he, hE]
  · have hexponent : marker :: sign ++ digits ++ rest = marker :: (sign ++ (digits ++ rest)) := by
      simp
    rw [hexponent, readExponent, if_pos hmarker, readExponentSign_append hdigits hsign]
    simp [readDigits_append hdigits hrest.endsDigits]

private theorem isExponent_of_readExponent {exponent : List Char}
    (h : readExponent cs = some (exponent, rest)) :
    IsExponent exponent ∧ cs = exponent ++ rest := by
  unfold readExponent at h
  split at h
  next =>
    cases h
    exact ⟨.inl rfl, rfl⟩
  next marker cs =>
    split at h
    next hmarker =>
      cases hsign : readExponentSign cs with
      | mk sign left =>
        rw [hsign] at h
        obtain ⟨⟨digits, _⟩, hdigits, hpure⟩ := Option.bind_eq_some_iff.mp h
        cases hpure
        obtain ⟨sign_eq, rfl⟩ := eq_of_readExponentSign hsign
        obtain ⟨isDigits, rfl⟩ := isDigits_of_readDigits hdigits
        exact ⟨.inr ⟨marker, sign, digits, hmarker, sign_eq, isDigits, rfl⟩, by simp⟩
    next =>
      cases h
      exact ⟨.inl rfl, rfl⟩

private theorem endsDigits_fraction {fraction exponent : List Char}
    (hfraction : IsFraction fraction) (hexponent : IsExponent exponent) (hrest : EndsNumber rest) :
    EndsDigits (fraction ++ (exponent ++ rest)) ∧ EndsDigits (exponent ++ rest) ∧
      ∀ c ∈ (exponent ++ rest).head?, c ≠ '.' := by
  have hlast : EndsDigits (exponent ++ rest) ∧ ∀ c ∈ (exponent ++ rest).head?, c ≠ '.' := by
    obtain rfl | ⟨marker, sign, digits, rfl | rfl, _, _, rfl⟩ := hexponent
    · exact ⟨hrest.endsDigits, fun c hc => (hrest c hc).2.1⟩
    · constructor <;> simp [EndsDigits]
    · constructor <;> simp [EndsDigits]
  refine ⟨?_, hlast⟩
  obtain rfl | ⟨digits, _, rfl⟩ := hfraction
  · exact hlast.1
  · simp [EndsDigits]

theorem SpellsNumber.exists_eq_cons {value : Json} (h : SpellsNumber value cs) :
    ∃ c rest, cs = c :: rest ∧ (c = '-' ∨ c.isDigit = true) := by
  obtain ⟨rfl | rfl, hwhole, _, _⟩ := h
  · obtain ⟨c, rest, rfl, hc⟩ := hwhole.1.exists_eq_cons
    exact ⟨c, _, rfl, .inr hc⟩
  · exact ⟨'-', _, rfl, .inl rfl⟩

/-- A spelled number is read up to its end. -/
theorem SpellsNumber.readNumber {value : Json} {cs : List Char} (h : SpellsNumber value cs)
    (hrest : EndsNumber rest) : readNumber (cs ++ rest) = some (value, rest) := by
  obtain ⟨hsign, hwhole, hfraction, hexponent⟩ := h
  obtain ⟨hends, hends', hpoint⟩ := endsDigits_fraction hfraction hexponent hrest
  simp only [Json.readNumber, List.append_assoc]
  rw [readSign_append hwhole.1 hsign]
  simp [readWhole_append hwhole hends, readFraction_append hfraction hends' hpoint,
    readExponent_append hexponent hrest]

/-- What is read as a number is spelled as one. -/
theorem exists_spellsNumber_of_readNumber {value : Json}
    (h : readNumber cs = some (value, rest)) :
    ∃ chars, SpellsNumber value chars ∧ cs = chars ++ rest := by
  unfold Json.readNumber at h
  cases hsign : readSign cs with
  | mk sign left =>
    rw [hsign] at h
    obtain ⟨⟨whole, _⟩, hwhole, h⟩ := Option.bind_eq_some_iff.mp h
    obtain ⟨⟨fraction, _⟩, hfraction, h⟩ := Option.bind_eq_some_iff.mp h
    obtain ⟨⟨exponent, _⟩, hexponent, hpure⟩ := Option.bind_eq_some_iff.mp h
    cases hpure
    obtain ⟨sign_eq, rfl⟩ := eq_of_readSign hsign
    obtain ⟨isWhole, rfl⟩ := isWhole_of_readWhole hwhole
    obtain ⟨isFraction, rfl⟩ := isFraction_of_readFraction hfraction
    obtain ⟨isExponent, rfl⟩ := isExponent_of_readExponent hexponent
    exact ⟨_, .parts sign_eq isWhole isFraction isExponent, by simp⟩

end Reading

section Integers

private theorem eq_zero_of_head?_toDigits (n : Nat) (h : (Nat.toDigits 10 n).head? = some '0') :
    n = 0 := by
  induction n using Nat.strongRecOn with
  | ind n ih =>
    by_cases hsmall : n < 10
    · rw [Nat.toDigits_of_lt_base hsmall] at h
      have hall : ∀ digit : Fin 10, digit.val.digitChar = '0' → digit.val = 0 := by decide
      exact hall ⟨n, hsmall⟩ (by simpa using h)
    · have hdigits : Nat.toDigits 10 n = Nat.toDigits 10 (n / 10) ++ [(n % 10).digitChar] := by
        rw [Nat.toDigits_eq_if (by decide), if_neg hsmall]
      rw [hdigits, List.head?_append, List.head?_eq_some_head Nat.toDigits_ne_nil,
        Option.some_or, ← List.head?_eq_some_head Nat.toDigits_ne_nil] at h
      have hzero : n / 10 = 0 := ih (n / 10) (by omega) h
      omega

theorem exists_toDigits_eq_cons (n : Nat) :
    ∃ c cs, Nat.toDigits 10 n = c :: cs ∧ c.isDigit = true := by
  obtain ⟨c, cs, hcs⟩ := List.exists_cons_of_ne_nil (Nat.toDigits_ne_nil (n := n) (b := 10))
  refine ⟨c, cs, hcs, ?_⟩
  exact Nat.isDigit_of_mem_toDigits (b := 10) (n := n) (by decide) (by decide) (by simp [hcs])

private theorem isWhole_toDigits (n : Nat) : IsWhole (Nat.toDigits 10 n) := by
  refine ⟨⟨Nat.toDigits_ne_nil, fun c hc => ?_⟩, fun hhead => ?_⟩
  · exact Nat.isDigit_of_mem_toDigits (by decide) (by decide) hc
  · rw [eq_zero_of_head?_toDigits n hhead, Nat.toDigits_zero]

private theorem toList_toString_ofNat (n : Nat) :
    (toString (Int.ofNat n)).toList = Nat.toDigits 10 n :=
  Nat.toList_repr

private theorem toList_toString_negSucc (n : Nat) :
    (toString (Int.negSucc n)).toList = '-' :: Nat.toDigits 10 (n + 1) := by
  rw [show toString (Int.negSucc n) = "-" ++ (n + 1).repr from rfl, String.toList_append,
    Nat.toList_repr]
  rfl

theorem spellsNumber_toString (value : Int) :
    SpellsNumber (.int value) (toString value).toList := by
  cases value with
  | ofNat n =>
    have hparts := SpellsNumber.parts (.inl rfl) (isWhole_toDigits n) (.inl rfl) (.inl rfl)
    rw [toList_toString_ofNat]
    simpa [ofNumeral] using hparts
  | negSucc n =>
    have hparts := SpellsNumber.parts (.inr rfl) (isWhole_toDigits (n + 1)) (.inl rfl) (.inl rfl)
    rw [toList_toString_negSucc]
    simpa [ofNumeral, Int.negSucc_eq] using hparts

end Integers

end VisualRules.Json
