import Mathlib.Data.List.DropRight
import VisualRules.Json.Reader
import VisualRules.Proofs.JsonNumber
import VisualRules.Proofs.JsonText

/-!
# The grammar of JSON

Which texts spell a value, told without the reader: blanks can stand around every value and every
name, and a string or a number can be spelled in several ways. The reader accepts exactly these
texts. It bounds its nested steps, so one direction carries how many steps a spelling needs; the
other one goes by the steps that were taken.
-/

namespace VisualRules.Json

def IsBlanks (cs : List Char) : Prop := ∀ c ∈ cs, isBlank c = true

def SpellsName (name : Option String) (cs : List Char) : Prop :=
  ∃ before chars after, IsBlanks before ∧ SpellsText name chars ∧ IsBlanks after ∧
    cs = before ++ '"' :: (chars ++ '"' :: after)

def commaSeparated (parts : List (List Char)) : List Char := [','].intercalate parts

/-- The characters spell this value. -/
inductive Spells : Json → List Char → Prop
  | null : Spells .null "null".toList
  | bool (value : Bool) : Spells (.bool value) (toString value).toList
  | number {value : Json} {cs : List Char} (number : SpellsNumber value cs) : Spells value cs
  | str {text : Option String} {cs : List Char} (spells : SpellsText text cs) :
    Spells (.str text) ('"' :: (cs ++ ['"']))
  | emptyArr {cs : List Char} (blanks : IsBlanks cs) : Spells (.arr []) ('[' :: (cs ++ [']']))
  | arr {parts : List (Json × List Char)} (nonempty : parts ≠ [])
    (spells : ∀ part ∈ parts, Spells part.1 part.2) :
    Spells (.arr (parts.map Prod.fst)) ('[' :: (commaSeparated (parts.map Prod.snd) ++ [']']))
  | emptyObj {cs : List Char} (blanks : IsBlanks cs) : Spells (.obj []) ('{' :: (cs ++ ['}']))
  | obj {parts : List ((Option String × Json) × List Char × List Char)} (nonempty : parts ≠ [])
    (names : ∀ part ∈ parts, SpellsName part.1.1 part.2.1)
    (spells : ∀ part ∈ parts, Spells part.1.2 part.2.2) :
    Spells (.obj (parts.map Prod.fst))
      ('{' :: (commaSeparated (parts.map fun part => part.2.1 ++ ':' :: part.2.2) ++ ['}']))
  | padded {value : Json} {before cs after : List Char} (front : IsBlanks before)
    (back : IsBlanks after) (spells : Spells value cs) : Spells value (before ++ (cs ++ after))

section Blanks

variable {cs rest : List Char}

theorem isBlanks_nil : IsBlanks [] := by simp [IsBlanks]

private theorem skipBlanks_append (h : IsBlanks cs) (rest : List Char) :
    skipBlanks (cs ++ rest) = skipBlanks rest := List.dropWhile_append_of_pos h

private theorem skipBlanks_cons {c : Char} (h : isBlank c = false) (cs : List Char) :
    skipBlanks (c :: cs) = c :: cs := by
  simp [skipBlanks, h]

private theorem skipBlanks_skipBlanks (cs : List Char) :
    skipBlanks (skipBlanks cs) = skipBlanks cs :=
  List.dropWhile_idempotent isBlank cs

private theorem exists_blanks_of_skipBlanks (h : skipBlanks cs = rest) :
    ∃ blanks, IsBlanks blanks ∧ cs = blanks ++ rest := by
  subst h
  exact ⟨_, List.all_eq_true.mp List.all_takeWhile, List.takeWhile_append_dropWhile.symm⟩

end Blanks

@[simp] theorem commaSeparated_singleton (part : List Char) : commaSeparated [part] = part := by
  simp [commaSeparated]

theorem commaSeparated_cons {parts : List (List Char)} (h : parts ≠ []) (part : List Char) :
    commaSeparated (part :: parts) = part ++ ',' :: commaSeparated parts := by
  obtain ⟨next, parts, rfl⟩ := List.exists_cons_of_ne_nil h
  simp [commaSeparated, List.intercalate]

private theorem exists_commaSeparated_eq_append (part : List Char) (parts : List (List Char)) :
    ∃ rest, commaSeparated (part :: parts) = part ++ rest := by
  by_cases h : parts = []
  · exact ⟨[], by rw [h, commaSeparated_singleton, List.append_nil]⟩
  · exact ⟨_, commaSeparated_cons h part⟩

/-- What can follow a value: the end, a blank, a comma or a closing bracket. -/
def Follows (rest : List Char) : Prop :=
  ∀ c ∈ rest.head?, isBlank c = true ∨ c = ',' ∨ c = ']' ∨ c = '}'

/-- The value is read from these characters, whatever may follow, and nothing but blanks is left
of them. Twice as many nested steps as there are characters are enough. -/
def IsRead (value : Json) (cs : List Char) : Prop :=
  ∀ fuel rest, Follows rest → 2 * cs.length < fuel →
    ∃ after, IsBlanks after ∧ readValue fuel (cs ++ rest) = some (value, after ++ rest)

section Completeness

private theorem follows_nil : Follows [] := by simp [Follows]

private theorem follows_cons {c : Char} (h : c = ',' ∨ c = ']' ∨ c = '}') (rest : List Char) :
    Follows (c :: rest) := by
  simp [Follows, h]

private theorem follows_append {blanks rest : List Char} (h : IsBlanks blanks)
    (hrest : Follows rest) :
    Follows (blanks ++ rest) := by
  cases blanks with
  | nil => exact hrest
  | cons c blanks => simp [Follows, h c (by simp)]

private theorem eq_of_isBlank {c : Char} (h : isBlank c = true) :
    c = ' ' ∨ c = '\t' ∨ c = '\n' ∨ c = '\r' := by
  simpa [isBlank, or_assoc] using h

private theorem Follows.endsNumber {rest : List Char} (h : Follows rest) : EndsNumber rest := by
  intro c hc
  obtain hblank | hclose := h c hc
  · obtain rfl | rfl | rfl | rfl := eq_of_isBlank hblank <;> decide
  · obtain rfl | rfl | rfl := hclose <;> decide

private theorem isBlank_and_ne_of_number {c : Char} (h : c = '-' ∨ c.isDigit = true) :
    isBlank c = false ∧ ∀ other ∈ ['[', ']', '{', '"', 'n', 't', 'f'], c ≠ other := by
  constructor
  · by_contra hblank
    obtain rfl | rfl | rfl | rfl := eq_of_isBlank (eq_true_of_ne_false hblank) <;> simp at h
  · intro other hother
    rintro rfl
    simp only [List.mem_cons, List.not_mem_nil, or_false] at hother
    obtain rfl | rfl | rfl | rfl | rfl | rfl | rfl := hother <;> simp at h

private theorem readValue_of_number {c : Char} (h : c = '-' ∨ c.isDigit = true) (fuel : Nat)
    (cs : List Char) : readValue (fuel + 1) (c :: cs) = readNumber (c :: cs) := by
  obtain ⟨hblank, hne⟩ := isBlank_and_ne_of_number h
  rw [readValue, skipBlanks_cons hblank]
  split <;> simp_all

/-- Behind blanks a value begins with a character that closes no list. -/
theorem Spells.exists_eq_append_cons {value : Json} {cs : List Char} (h : Spells value cs) :
    ∃ before c rest, IsBlanks before ∧ cs = before ++ c :: rest ∧ isBlank c = false ∧ c ≠ ']' := by
  have hbare {c : Char} (rest : List Char) (hc : isBlank c = false ∧ c ≠ ']') :
      ∃ before c' rest', IsBlanks before ∧ c :: rest = before ++ c' :: rest' ∧
        isBlank c' = false ∧ c' ≠ ']' :=
    ⟨[], c, rest, isBlanks_nil, rfl, hc⟩
  induction h with
  | null => exact hbare _ (by decide)
  | bool value => cases value <;> exact hbare _ (by decide)
  | number number =>
    obtain ⟨c, rest, rfl, hc⟩ := number.exists_eq_cons
    obtain ⟨hblank, hne⟩ := isBlank_and_ne_of_number hc
    exact hbare _ ⟨hblank, hne ']' (by decide)⟩
  | str => exact hbare _ (by decide)
  | emptyArr => exact hbare _ (by decide)
  | arr => exact hbare _ (by decide)
  | emptyObj => exact hbare _ (by decide)
  | obj => exact hbare _ (by decide)
  | @padded value before cs after front back spells ih =>
    obtain ⟨before', c, rest, hbefore', rfl, hc⟩ := ih
    refine ⟨before ++ before', c, rest ++ after, ?_, by simp, hc⟩
    exact List.forall_mem_append.mpr ⟨front, hbefore'⟩

private theorem readItems_commaSeparated {parts : List (Json × List Char)} (hne : parts ≠ [])
    (h : ∀ part ∈ parts, IsRead part.1 part.2) (fuel : Nat) (found : List Json) (rest : List Char)
    (hfuel : 2 * (commaSeparated (parts.map Prod.snd)).length + 1 < fuel) :
    readItems fuel found (commaSeparated (parts.map Prod.snd) ++ ']' :: rest) =
      some (.arr (found.reverse ++ parts.map Prod.fst), rest) := by
  induction parts generalizing fuel found with
  | nil => exact absurd rfl hne
  | cons part parts ih =>
    obtain ⟨item, cs⟩ := part
    obtain ⟨hpart, hparts⟩ := List.forall_mem_cons.mp h
    obtain ⟨fuel, rfl⟩ : ∃ steps, fuel = steps + 1 := ⟨fuel - 1, by omega⟩
    rw [List.map_cons] at hfuel ⊢
    by_cases hlast : parts = []
    · subst hlast
      rw [List.map_nil, commaSeparated_singleton] at hfuel ⊢
      obtain ⟨after, hafter, hread⟩ :=
        hpart fuel (']' :: rest) (follows_cons (by decide) rest) (by omega)
      rw [readItems, hread]
      simp only [skipBlanks_append hafter]
      simp [skipBlanks, isBlank]
    · rw [commaSeparated_cons (by simpa using hlast)] at hfuel ⊢
      rw [List.length_append, List.length_cons] at hfuel
      rw [List.append_assoc, List.cons_append]
      obtain ⟨after, hafter, hread⟩ := hpart fuel (',' :: _) (follows_cons (by decide) _) (by omega)
      rw [readItems, hread]
      simp only [skipBlanks_append hafter, skipBlanks_cons (show isBlank ',' = false by decide)]
      rw [ih hlast hparts fuel (item :: found) (by omega)]
      simp

/-- One field is read. After a comma another one comes, and a closing bracket ends the object. -/
theorem readFields_field {name : Option String} {nameChars : List Char} {value : Json}
    {cs : List Char} (hname : SpellsName name nameChars) (hvalue : IsRead value cs) {fuel : Nat}
    (found : List (Option String × Json)) (rest : List Char) (hfuel : 2 * cs.length < fuel) :
    readFields (fuel + 1) found (nameChars ++ ':' :: (cs ++ ',' :: rest)) =
        readFields fuel ((name, value) :: found) rest ∧
      readFields (fuel + 1) found (nameChars ++ ':' :: (cs ++ '}' :: rest)) =
        some (.obj ((name, value) :: found).reverse, rest) := by
  obtain ⟨before, chars, after, hbefore, hchars, hafter, rfl⟩ := hname
  have hfield (next : List Char) : before ++ '"' :: (chars ++ '"' :: after) ++ ':' :: next =
      before ++ '"' :: (chars ++ '"' :: (after ++ ':' :: next)) := by simp
  have htext (left : List Char) : readText (chars ++ '"' :: left) = some (name, left) :=
    readText_eq_some_iff.mpr ⟨chars, hchars, rfl⟩
  have hquote : isBlank '"' = false := by decide
  have hcolon : isBlank ':' = false := by decide
  constructor
  · obtain ⟨left, hleft, hread⟩ :=
      hvalue fuel (',' :: rest) (follows_cons (by decide) rest) hfuel
    have hcomma : isBlank ',' = false := by decide
    rw [hfield, readFields]
    simp only [skipBlanks_append hbefore, skipBlanks_cons hquote, htext,
      skipBlanks_append hafter, skipBlanks_cons hcolon, hread, skipBlanks_append hleft,
      skipBlanks_cons hcomma]
  · obtain ⟨left, hleft, hread⟩ :=
      hvalue fuel ('}' :: rest) (follows_cons (by decide) rest) hfuel
    have hclose : isBlank '}' = false := by decide
    rw [hfield, readFields]
    simp only [skipBlanks_append hbefore, skipBlanks_cons hquote, htext,
      skipBlanks_append hafter, skipBlanks_cons hcolon, hread, skipBlanks_append hleft,
      skipBlanks_cons hclose]

private theorem readFields_commaSeparated
    {parts : List ((Option String × Json) × List Char × List Char)} (hne : parts ≠ [])
    (hnames : ∀ part ∈ parts, SpellsName part.1.1 part.2.1)
    (h : ∀ part ∈ parts, IsRead part.1.2 part.2.2) (fuel : Nat)
    (found : List (Option String × Json)) (rest : List Char)
    (hfuel : 2 * (commaSeparated (parts.map fun part => part.2.1 ++ ':' :: part.2.2)).length + 1 <
      fuel) :
    readFields fuel found
        (commaSeparated (parts.map fun part => part.2.1 ++ ':' :: part.2.2) ++ '}' :: rest) =
      some (.obj (found.reverse ++ parts.map Prod.fst), rest) := by
  induction parts generalizing fuel found with
  | nil => exact absurd rfl hne
  | cons part parts ih =>
    obtain ⟨hname, hnames⟩ := List.forall_mem_cons.mp hnames
    obtain ⟨hvalue, hvalues⟩ := List.forall_mem_cons.mp h
    obtain ⟨fuel, rfl⟩ : ∃ steps, fuel = steps + 1 := ⟨fuel - 1, by omega⟩
    rw [List.map_cons] at hfuel ⊢
    by_cases hlast : parts = []
    · subst hlast
      rw [List.map_nil, commaSeparated_singleton, List.length_append, List.length_cons] at hfuel
      rw [List.map_nil, commaSeparated_singleton, List.append_assoc, List.cons_append,
        (readFields_field hname hvalue found rest (by omega)).2]
      simp
    · rw [commaSeparated_cons (by simpa using hlast)] at hfuel ⊢
      simp only [List.length_append, List.length_cons] at hfuel
      simp only [List.append_assoc, List.cons_append]
      rw [(readFields_field hname hvalue found _ (by omega)).1,
        ih hlast hnames hvalues fuel (part.1 :: found) (by omega)]
      simp

private theorem readValue_skipBlanks (fuel : Nat) (cs : List Char) :
    readValue fuel (skipBlanks cs) = readValue fuel cs := by
  cases fuel with
  | zero => rfl
  | succ fuel => rw [readValue, readValue, skipBlanks_skipBlanks]

private theorem readItems_skipBlanks (fuel : Nat) (found : List Json) (cs : List Char) :
    readItems fuel found (skipBlanks cs) = readItems fuel found cs := by
  cases fuel with
  | zero => rfl
  | succ fuel => rw [readItems, readItems, readValue_skipBlanks]

private theorem readFields_skipBlanks (fuel : Nat) (found : List (Option String × Json))
    (cs : List Char) : readFields fuel found (skipBlanks cs) = readFields fuel found cs := by
  cases fuel with
  | zero => rfl
  | succ fuel => rw [readFields, readFields, skipBlanks_skipBlanks]

private theorem readValue_arr {before rest : List Char} {c : Char} (h : IsBlanks before)
    (hblank : isBlank c = false) (hclose : c ≠ ']') (fuel : Nat) :
    readValue (fuel + 1) ('[' :: (before ++ c :: rest)) =
      readItems fuel [] (before ++ c :: rest) := by
  have hskip : skipBlanks (before ++ c :: rest) = c :: rest := by
    rw [skipBlanks_append h, skipBlanks_cons hblank]
  rw [← readItems_skipBlanks, readValue, skipBlanks_cons (by decide)]
  simp [hskip, hclose]

private theorem readValue_obj {before rest : List Char} (h : IsBlanks before) (fuel : Nat) :
    readValue (fuel + 1) ('{' :: (before ++ '"' :: rest)) =
      readFields fuel [] (before ++ '"' :: rest) := by
  have hskip : skipBlanks (before ++ '"' :: rest) = '"' :: rest := by
    rw [skipBlanks_append h, skipBlanks_cons (by decide)]
  rw [← readFields_skipBlanks, readValue, skipBlanks_cons (by decide)]
  simp [hskip]

private theorem IsRead.of_succ {value : Json} {cs : List Char}
    (h : ∀ fuel rest, Follows rest → 2 * cs.length ≤ fuel →
      readValue (fuel + 1) (cs ++ rest) = some (value, rest)) : IsRead value cs := by
  intro fuel rest hrest hfuel
  obtain ⟨fuel, rfl⟩ : ∃ steps, fuel = steps + 1 := ⟨fuel - 1, by omega⟩
  exact ⟨[], isBlanks_nil, h fuel rest hrest (by omega)⟩

private theorem isRead_arr {parts : List (Json × List Char)} (hne : parts ≠ [])
    (spells : ∀ part ∈ parts, Spells part.1 part.2) (h : ∀ part ∈ parts, IsRead part.1 part.2) :
    IsRead (.arr (parts.map Prod.fst)) ('[' :: (commaSeparated (parts.map Prod.snd) ++ [']'])) := by
  apply IsRead.of_succ
  intro fuel rest _ hfuel
  rw [List.length_cons, List.length_append, List.length_singleton] at hfuel
  have hread := readItems_commaSeparated hne h fuel [] rest (by omega)
  obtain ⟨before, c, more, hbefore, hcs, hblank, hclose⟩ : ∃ before c more, IsBlanks before ∧
      commaSeparated (parts.map Prod.snd) ++ ']' :: rest = before ++ c :: more ∧
        isBlank c = false ∧ c ≠ ']' := by
    obtain ⟨part, parts, rfl⟩ := List.exists_cons_of_ne_nil hne
    obtain ⟨left, hleft⟩ := exists_commaSeparated_eq_append part.2 (parts.map Prod.snd)
    obtain ⟨before, c, more, hbefore, hcs, hc⟩ := (spells part (by simp)).exists_eq_append_cons
    refine ⟨before, c, more ++ (left ++ ']' :: rest), hbefore, ?_, hc⟩
    rw [List.map_cons, hleft, hcs]
    simp
  rw [List.cons_append, List.append_assoc, List.singleton_append, hcs,
    readValue_arr hbefore hblank hclose, ← hcs, hread]
  simp

private theorem isRead_obj {parts : List ((Option String × Json) × List Char × List Char)}
    (hne : parts ≠ []) (names : ∀ part ∈ parts, SpellsName part.1.1 part.2.1)
    (h : ∀ part ∈ parts, IsRead part.1.2 part.2.2) :
    IsRead (.obj (parts.map Prod.fst))
      ('{' :: (commaSeparated (parts.map fun part => part.2.1 ++ ':' :: part.2.2) ++ ['}'])) := by
  apply IsRead.of_succ
  intro fuel rest _ hfuel
  rw [List.length_cons, List.length_append, List.length_singleton] at hfuel
  have hread := readFields_commaSeparated hne names h fuel [] rest (by omega)
  obtain ⟨before, more, hbefore, hcs⟩ : ∃ before more, IsBlanks before ∧
      commaSeparated (parts.map fun part => part.2.1 ++ ':' :: part.2.2) ++ '}' :: rest =
        before ++ '"' :: more := by
    obtain ⟨part, parts, rfl⟩ := List.exists_cons_of_ne_nil hne
    obtain ⟨left, hleft⟩ := exists_commaSeparated_eq_append (part.2.1 ++ ':' :: part.2.2)
      (parts.map fun part => part.2.1 ++ ':' :: part.2.2)
    obtain ⟨before, chars, after, hbefore, _, _, hname⟩ := names part (by simp)
    refine ⟨before, chars ++ '"' :: (after ++ ':' :: (part.2.2 ++ (left ++ '}' :: rest))),
      hbefore, ?_⟩
    rw [List.map_cons, hleft, hname]
    simp
  rw [List.cons_append, List.append_assoc, List.singleton_append, hcs, readValue_obj hbefore,
    ← hcs, hread]
  simp

/-- Every spelling of a value is read as that value. -/
theorem Spells.isRead {value : Json} {cs : List Char} (h : Spells value cs) : IsRead value cs := by
  induction h with
  | null =>
    apply IsRead.of_succ
    simp [readValue, skipBlanks, isBlank]
  | bool value =>
    apply IsRead.of_succ
    cases value <;> simp [readValue, skipBlanks, isBlank, toString]
  | number number =>
    apply IsRead.of_succ
    intro fuel rest hrest _
    obtain ⟨c, cs, rfl, hc⟩ := number.exists_eq_cons
    exact (readValue_of_number hc fuel _).trans (number.readNumber hrest.endsNumber)
  | @str text cs spells =>
    apply IsRead.of_succ
    intro fuel rest _ _
    have htext : readText (cs ++ '"' :: rest) = some (text, rest) :=
      readText_eq_some_iff.mpr ⟨cs, spells, rfl⟩
    simp [readValue, skipBlanks_cons (show isBlank '"' = false by decide), htext]
  | @emptyArr cs blanks =>
    apply IsRead.of_succ
    intro fuel rest _ _
    simp [readValue, skipBlanks_cons (show isBlank '[' = false by decide),
      skipBlanks_append blanks, skipBlanks_cons (show isBlank ']' = false by decide)]
  | arr nonempty spells ih => exact isRead_arr nonempty spells ih
  | @emptyObj cs blanks =>
    apply IsRead.of_succ
    intro fuel rest _ _
    simp [readValue, skipBlanks_cons (show isBlank '{' = false by decide),
      skipBlanks_append blanks, skipBlanks_cons (show isBlank '}' = false by decide)]
  | obj nonempty names spells ih => exact isRead_obj nonempty names ih
  | @padded value before cs after front back spells ih =>
    intro fuel rest hrest hfuel
    rw [List.length_append, List.length_append] at hfuel
    obtain ⟨left, hleft, hread⟩ := ih fuel (after ++ rest) (follows_append back hrest) (by omega)
    refine ⟨left ++ after, List.forall_mem_append.mpr ⟨hleft, back⟩, ?_⟩
    rw [← readValue_skipBlanks, List.append_assoc, List.append_assoc, skipBlanks_append front,
      readValue_skipBlanks, hread, List.append_assoc]

end Completeness

/-- What is read within this many nested steps has been spelled. -/
structure ReadsSpellings (fuel : Nat) : Prop where
  value : ∀ {cs value rest}, readValue fuel cs = some (value, rest) →
    ∃ chars, Spells value chars ∧ cs = chars ++ rest
  items : ∀ {found cs value rest}, readItems fuel found cs = some (value, rest) →
    ∃ parts : List (Json × List Char), parts ≠ [] ∧ (∀ part ∈ parts, Spells part.1 part.2) ∧
      value = .arr (found.reverse ++ parts.map Prod.fst) ∧
        cs = commaSeparated (parts.map Prod.snd) ++ ']' :: rest
  fields : ∀ {found cs value rest}, readFields fuel found cs = some (value, rest) →
    ∃ parts : List ((Option String × Json) × List Char × List Char), parts ≠ [] ∧
      (∀ part ∈ parts, SpellsName part.1.1 part.2.1) ∧
      (∀ part ∈ parts, Spells part.1.2 part.2.2) ∧
      value = .obj (found.reverse ++ parts.map Prod.fst) ∧
        cs = commaSeparated (parts.map fun part => part.2.1 ++ ':' :: part.2.2) ++ '}' :: rest

section Soundness

variable {fuel : Nat}

private theorem Spells.append_blanks {value : Json} {cs after : List Char} (h : Spells value cs)
    (hafter : IsBlanks after) : Spells value (cs ++ after) := h.padded isBlanks_nil hafter

private theorem exists_items_of_succ (h : ReadsSpellings fuel) {found : List Json}
    {cs rest : List Char}
    {value : Json} (hread : readItems (fuel + 1) found cs = some (value, rest)) :
    ∃ parts : List (Json × List Char), parts ≠ [] ∧ (∀ part ∈ parts, Spells part.1 part.2) ∧
      value = .arr (found.reverse ++ parts.map Prod.fst) ∧
        cs = commaSeparated (parts.map Prod.snd) ++ ']' :: rest := by
  rw [readItems] at hread
  split at hread
  next => cases hread
  next item left hitem =>
    obtain ⟨chars, hchars, rfl⟩ := h.value hitem
    split at hread
    next left hskip =>
      obtain ⟨after, hafter, rfl⟩ := exists_blanks_of_skipBlanks hskip
      obtain ⟨parts, hne, hparts, rfl, rfl⟩ := h.items hread
      refine ⟨(item, chars ++ after) :: parts, by simp, ?_, by simp, ?_⟩
      · exact List.forall_mem_cons.mpr ⟨hchars.append_blanks hafter, hparts⟩
      · rw [List.map_cons, commaSeparated_cons (by simpa using hne)]
        simp
    next left hskip =>
      cases hread
      obtain ⟨after, hafter, rfl⟩ := exists_blanks_of_skipBlanks hskip
      refine ⟨[(item, chars ++ after)], by simp, ?_, by simp, by simp⟩
      exact List.forall_mem_singleton.mpr (hchars.append_blanks hafter)
    next => cases hread

private theorem exists_fields_of_succ (h : ReadsSpellings fuel)
    {found : List (Option String × Json)} {cs rest : List Char} {value : Json}
    (hread : readFields (fuel + 1) found cs = some (value, rest)) :
    ∃ parts : List ((Option String × Json) × List Char × List Char), parts ≠ [] ∧
      (∀ part ∈ parts, SpellsName part.1.1 part.2.1) ∧
      (∀ part ∈ parts, Spells part.1.2 part.2.2) ∧
      value = .obj (found.reverse ++ parts.map Prod.fst) ∧
        cs = commaSeparated (parts.map fun part => part.2.1 ++ ':' :: part.2.2) ++ '}' :: rest := by
  rw [readFields] at hread
  split at hread
  next text hquote =>
    obtain ⟨before, hbefore, rfl⟩ := exists_blanks_of_skipBlanks hquote
    split at hread
    next => cases hread
    next name left htext =>
      obtain ⟨chars, hchars, rfl⟩ := readText_eq_some_iff.mp htext
      split at hread
      next left hcolon =>
        obtain ⟨after, hafter, rfl⟩ := exists_blanks_of_skipBlanks hcolon
        have hname : SpellsName name (before ++ '"' :: (chars ++ '"' :: after)) :=
          ⟨before, chars, after, hbefore, hchars, hafter, rfl⟩
        split at hread
        next => cases hread
        next item left hitem =>
          obtain ⟨itemChars, hitemChars, rfl⟩ := h.value hitem
          split at hread
          next left hskip =>
            obtain ⟨blanks, hblanks, rfl⟩ := exists_blanks_of_skipBlanks hskip
            obtain ⟨parts, hne, hnames, hparts, rfl, rfl⟩ := h.fields hread
            refine ⟨((name, item), _, itemChars ++ blanks) :: parts, by simp,
              List.forall_mem_cons.mpr ⟨hname, hnames⟩,
              List.forall_mem_cons.mpr ⟨hitemChars.append_blanks hblanks, hparts⟩, by simp, ?_⟩
            rw [List.map_cons, commaSeparated_cons (by simpa using hne)]
            simp
          next left hskip =>
            cases hread
            obtain ⟨blanks, hblanks, rfl⟩ := exists_blanks_of_skipBlanks hskip
            exact ⟨[((name, item), _, itemChars ++ blanks)], by simp,
              List.forall_mem_singleton.mpr hname,
              List.forall_mem_singleton.mpr (hitemChars.append_blanks hblanks), by simp, by simp⟩
          next => cases hread
      next => cases hread
  next => cases hread

private theorem exists_value_of_succ (h : ReadsSpellings fuel) {cs rest : List Char} {value : Json}
    (hread : readValue (fuel + 1) cs = some (value, rest)) :
    ∃ chars, Spells value chars ∧ cs = chars ++ rest := by
  obtain ⟨before, hbefore, hcs⟩ := exists_blanks_of_skipBlanks (Eq.refl (skipBlanks cs))
  suffices hbare : ∃ chars, Spells value chars ∧ skipBlanks cs = chars ++ rest by
    obtain ⟨chars, hchars, hskip⟩ := hbare
    refine ⟨before ++ (chars ++ []), hchars.padded hbefore isBlanks_nil, ?_⟩
    rw [hcs, hskip]
    simp
  rw [readValue] at hread
  split at hread
  next left hskip =>
    split at hread
    next left' hclose =>
      cases hread
      obtain ⟨blanks, hblanks, rfl⟩ := exists_blanks_of_skipBlanks hclose
      exact ⟨_, .emptyArr hblanks, by simp [hskip]⟩
    next =>
      rw [readItems_skipBlanks] at hread
      obtain ⟨parts, hne, hparts, rfl, rfl⟩ := h.items hread
      exact ⟨_, .arr hne hparts, by simp [hskip]⟩
  next left hskip =>
    split at hread
    next left' hclose =>
      cases hread
      obtain ⟨blanks, hblanks, rfl⟩ := exists_blanks_of_skipBlanks hclose
      exact ⟨_, .emptyObj hblanks, by simp [hskip]⟩
    next =>
      rw [readFields_skipBlanks] at hread
      obtain ⟨parts, hne, hnames, hparts, rfl, rfl⟩ := h.fields hread
      exact ⟨_, .obj hne hnames hparts, by simp [hskip]⟩
  next left hskip =>
    split at hread
    next text left' htext =>
      cases hread
      obtain ⟨chars, hchars, rfl⟩ := readText_eq_some_iff.mp htext
      exact ⟨_, .str hchars, by simp [hskip]⟩
    next => cases hread
  next left hskip =>
    cases hread
    exact ⟨_, .null, hskip⟩
  next left hskip =>
    cases hread
    exact ⟨_, .bool true, hskip⟩
  next left hskip =>
    cases hread
    exact ⟨_, .bool false, hskip⟩
  next =>
    obtain ⟨chars, hchars, hskip⟩ := exists_spellsNumber_of_readNumber hread
    exact ⟨chars, .number hchars, hskip⟩

/-- Every step reads what is spelled if the steps nested in it do. -/
theorem readsSpellings (fuel : Nat) : ReadsSpellings fuel := by
  induction fuel with
  | zero =>
    constructor
    case value =>
      intro cs value rest h
      rw [readValue] at h
      cases h
    case items =>
      intro found cs value rest h
      rw [readItems] at h
      cases h
    case fields =>
      intro found cs value rest h
      rw [readFields] at h
      cases h
  | succ fuel ih =>
    exact ⟨exists_value_of_succ ih, exists_items_of_succ ih, exists_fields_of_succ ih⟩

end Soundness

/-- A text is parsed as a value exactly if it spells that value. -/
theorem parse?_eq_some_iff {text : String} {value : Json} :
    parse? text = some value ↔ Spells value text.toList := by
  unfold parse?
  constructor
  · intro h
    split at h
    next value' rest hread =>
      split at h
      next hskip =>
        cases h
        obtain ⟨chars, hchars, hcs⟩ := (readsSpellings _).value hread
        obtain ⟨after, hafter, hrest⟩ := exists_blanks_of_skipBlanks hskip
        rw [hcs, hrest, List.append_nil]
        exact hchars.append_blanks hafter
      next => cases h
    next => cases h
  · intro h
    obtain ⟨after, hafter, hread⟩ :=
      h.isRead (2 * text.toList.length + 2) [] follows_nil (by omega)
    rw [List.append_nil, List.append_nil] at hread
    have hskip : skipBlanks after = [] := by
      rw [← List.append_nil after, skipBlanks_append hafter]
      rfl
    rw [hread]
    exact if_pos hskip

end VisualRules.Json
