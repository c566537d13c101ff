import VisualRules.Json.Text

/-!
# Strings are read as they are spelled

A string is spelled in many ways: a character can stand for itself, or an escape for it. The reader
takes each spelling up to its closing quote and takes nothing else. What is written is one of the
spellings of a text, so it is read back, whatever characters the text has.
-/

namespace VisualRules.Json

/-- The units that these characters spell between quotes. A quote, a backslash and a control
character have to be escaped, and every unit can be. -/
inductive SpellsUnits : List Nat → List Char → Prop
  | nil : SpellsUnits [] []
  | plain {units : List Nat} {cs : List Char} (c : Char) (control : ¬c.toNat < 0x20)
    (quote : c ≠ '"') (slash : c ≠ '\\') (spells : SpellsUnits units cs) :
    SpellsUnits (c.toNat :: units) (c :: cs)
  | letter {units : List Nat} {cs : List Char} {letter c : Char}
    (escape : (letter, c) ∈ ('/', '/') :: shortEscapes) (spells : SpellsUnits units cs) :
    SpellsUnits (c.toNat :: units) ('\\' :: letter :: cs)
  | digits {units : List Nat} {cs : List Char} {unit : Nat} {a b c d : Char}
    (digits : hexUnit? a b c d = some unit) (spells : SpellsUnits units cs) :
    SpellsUnits (unit :: units) ('\\' :: 'u' :: a :: b :: c :: d :: cs)

/-- The characters between quotes spell a string with this text. -/
def SpellsText (text : Option String) (cs : List Char) : Prop :=
  ∃ units, SpellsUnits units cs ∧ decodeUnits [] units = text

section Reading

private theorem unescape?_eq_some_iff {letter c : Char} :
    unescape? letter = some c ↔ (letter, c) ∈ ('/', '/') :: shortEscapes := by
  have hall : ∀ pair ∈ ('/', '/') :: shortEscapes, unescape? pair.1 = some pair.2 := by decide
  constructor
  · unfold unescape?
    split
    next hslash =>
      rintro ⟨⟩
      simp [hslash]
    next hslash =>
      intro h
      obtain ⟨before, after, hlist, _⟩ := List.lookup_eq_some_iff.mp h
      simp [hlist]
  · exact fun h => hall _ h

private theorem SpellsUnits.readUnits {units : List Nat} {cs : List Char} (h : SpellsUnits units cs)
    (found : List Nat) (rest : List Char) :
    readUnits found (cs ++ '"' :: rest) = some (units.reverse ++ found, rest) := by
  induction h generalizing found with
  | nil => simp [Json.readUnits]
  | plain c control quote slash spells ih => simp [Json.readUnits, slash, control, ih]
  | @letter units cs letter c escape spells ih =>
    have hu : letter ≠ 'u' := by
      rintro rfl
      revert escape
      simp [shortEscapes]
    simp [Json.readUnits, hu, unescape?_eq_some_iff.mpr escape, ih]
  | digits digits spells ih => simp [Json.readUnits, digits, ih]

private theorem exists_spellsUnits_of_readUnits {found all : List Nat} {cs rest : List Char}
    (h : readUnits found cs = some (all, rest)) : ∃ units chars,
      SpellsUnits units chars ∧ all = units.reverse ++ found ∧ cs = chars ++ '"' :: rest := by
  fun_induction readUnits found cs with
  | case1 => cases h
  | case2 =>
    cases h
    exact ⟨[], [], .nil, rfl, rfl⟩
  | case3 found a b c d cs unit hunit ih =>
    obtain ⟨units, chars, hspells, rfl, rfl⟩ := ih h
    exact ⟨unit :: units, _, .digits hunit hspells, by simp, rfl⟩
  | case4 => cases h
  | case5 found letter cs hnot c hletter ih =>
    obtain ⟨units, chars, hspells, rfl, rfl⟩ := ih h
    exact ⟨c.toNat :: units, _, .letter (unescape?_eq_some_iff.mp hletter) hspells, by simp, rfl⟩
  | case6 => cases h
  | case7 => cases h
  | case8 found c cs hquote _ hslash hcontrol ih =>
    obtain ⟨units, chars, hspells, rfl, rfl⟩ := ih h
    -- A backslash would have to be followed by what it escapes, and only a quote is left.
    have hne : c ≠ '\\' := by
      rintro rfl
      cases chars with
      | nil => exact hslash _ _ rfl rfl
      | cons letter chars => exact hslash _ _ rfl rfl
    exact ⟨c.toNat :: units, _, .plain c hcontrol hquote hne hspells, by simp, rfl⟩

/-- A string is read up to its closing quote, and exactly if it is spelled as strings are. -/
theorem readText_eq_some_iff {text : Option String} {cs rest : List Char} :
    readText cs = some (text, rest) ↔
      ∃ chars, SpellsText text chars ∧ cs = chars ++ '"' :: rest := by
  unfold readText
  constructor
  · intro h
    cases hunits : readUnits [] cs with
    | none =>
      rw [hunits] at h
      cases h
    | some result =>
      rw [hunits] at h
      cases h
      obtain ⟨units, chars, hspells, hall, rfl⟩ := exists_spellsUnits_of_readUnits hunits
      exact ⟨chars, ⟨units, hspells, by simp [hall]⟩, rfl⟩
  · rintro ⟨chars, ⟨units, hspells, rfl⟩, rfl⟩
    rw [hspells.readUnits]
    simp

end Reading

section Writing

private theorem hexValue?_digitChar {digit : Nat} (h : digit < 16) :
    hexValue? digit.digitChar = some digit := by
  have hall : ∀ digit : Fin 16, hexValue? digit.val.digitChar = some digit.val := by decide
  exact hall ⟨digit, h⟩

private theorem hexUnit?_hexDigits {unit : Nat} (h : unit < 65536) :
    hexUnit? (unit / 4096 % 16).digitChar (unit / 256 % 16).digitChar (unit / 16 % 16).digitChar
      (unit % 16).digitChar = some unit := by
  have hfirst : unit / 4096 % 16 < 16 := Nat.mod_lt _ (by decide)
  have hsecond : unit / 256 % 16 < 16 := Nat.mod_lt _ (by decide)
  have hthird : unit / 16 % 16 < 16 := Nat.mod_lt _ (by decide)
  have hfourth : unit % 16 < 16 := Nat.mod_lt _ (by decide)
  have hunit : ((unit / 4096 % 16 * 16 + unit / 256 % 16) * 16 + unit / 16 % 16) * 16 +
      unit % 16 = unit := by omega
  simp [hexUnit?, hexValue?_digitChar hfirst, hexValue?_digitChar hsecond,
    hexValue?_digitChar hthird, hexValue?_digitChar hfourth, hunit]

private theorem SpellsUnits.escape {units : List Nat} {cs : List Char} (h : SpellsUnits units cs)
    (c : Char) : SpellsUnits (c.toNat :: units) (escape c ++ cs) := by
  unfold Json.escape
  split
  next letter other hfind =>
    have hother : other = c := by simpa using List.find?_some hfind
    rw [← hother]
    exact .letter (List.mem_cons_of_mem _ (List.mem_of_find?_eq_some hfind)) h
  next hfind =>
    split
    next hcontrol =>
      have hunit : c.toNat < 65536 := by omega
      exact .digits (hexUnit?_hexDigits hunit) h
    next hcontrol =>
      have hquote : c ≠ '"' := by
        rintro rfl
        simp [shortEscapes] at hfind
      have hslash : c ≠ '\\' := by
        rintro rfl
        simp [shortEscapes] at hfind
      exact .plain c hcontrol hquote hslash h

private theorem spellsUnits_flatMap_escape (text : List Char) :
    SpellsUnits (text.map Char.toNat) (text.flatMap Json.escape) := by
  induction text with
  | nil => exact .nil
  | cons c text ih => exact ih.escape c

/-- No character has the code point of a surrogate. -/
theorem not_surrogate (c : Char) :
    isHighSurrogate c.toNat = false ∧ isLowSurrogate c.toNat = false := by
  have hvalid : c.toNat < 0xD800 ∨ 0xDFFF < c.toNat ∧ c.toNat < 0x110000 := c.valid
  constructor
  · simp [isHighSurrogate]
    omega
  · simp [isLowSurrogate]
    omega

private theorem decodeUnits_map_toNat (found text : List Char) :
    decodeUnits found (text.map Char.toNat) = some (String.ofList (found.reverse ++ text)) := by
  induction text generalizing found with
  | nil => simp [decodeUnits]
  | cons c text ih =>
    obtain ⟨hhigh, hlow⟩ := not_surrogate c
    rw [List.map_cons, decodeUnits.eq_def]
    simp [hhigh, hlow, ih, Char.ofNat_toNat]

/-- What is written between quotes spells the text. -/
theorem spellsText_flatMap_escape (text : String) :
    SpellsText (some text) (text.toList.flatMap escape) := by
  refine ⟨_, spellsUnits_flatMap_escape text.toList, ?_⟩
  rw [decodeUnits_map_toNat]
  simp

end Writing

end VisualRules.Json
