import VisualRules.Proofs.Fitting
import VisualRules.Proofs.LineRanges
import VisualRules.Proofs.TestReading

/-!
# The code of an action tells the action

Different actions have different code. The words of a statement tell which kind of card it is from,
and between the words stand numbers, each of which is read in one way only. No frequency and no
duration occurs twice in its table, and a state bit that is not written is one that was left alone.
-/

namespace VisualRules

/-- The code of an action, every statement on a line of its own. -/
def Action.code (action : Action) (depth : Nat) : Except Fault String :=
  Line.textOf <$> action.lines depth

/-- The text with one more tab in front of every line. -/
def indented (text : String) : String := String.join ((cutAfterBreaks text).map ("\t" ++ ·))

section Numbers

private theorem decimal_injective : Function.Injective decimal := by
  intro value other h
  have hread := congrArg (fun text => integer? text.toList) h
  simp only [integer?_decimal, Option.some.injEq] at hread
  exact Int32.toInt_inj.mp hread

private theorem eq_of_append_cons {c : Char} {text other rest rest' : List Char} (h : c ∉ text)
    (hother : c ∉ other) (heq : text ++ c :: rest = other ++ c :: rest') :
    text = other ∧ rest = rest' := by
  have hsplit := congrArg (List.splitOn c) heq
  rw [List.splitOn_append_cons_self_of_not_mem h,
    List.splitOn_append_cons_self_of_not_mem hother] at hsplit
  obtain ⟨rfl, _⟩ := List.cons.inj hsplit
  exact ⟨rfl, List.cons.inj (List.append_cancel_left heq) |>.2⟩

/-- Texts are read back from their join if none of them has the character that the separator begins
with. -/
theorem eq_of_intercalate {separator : String} {c : Char} {after : List Char}
    (hseparator : separator.toList = c :: after) {texts others : List String}
    (h : ∀ text ∈ texts, c ∉ text.toList) (h' : ∀ text ∈ others, c ∉ text.toList)
    (hlength : texts.length = others.length)
    (heq : separator.intercalate texts = separator.intercalate others) : texts = others := by
  induction texts generalizing others with
  | nil => exact (List.length_eq_zero_iff.mp hlength.symm).symm
  | cons text rest ih =>
    obtain ⟨other, rest', rfl⟩ := List.exists_cons_of_length_eq_add_one hlength.symm
    rw [List.forall_mem_cons] at h h'
    have hrest : rest.length = rest'.length := Nat.succ.inj hlength
    by_cases hnil : rest = []
    · subst hnil
      obtain rfl := List.length_eq_zero_iff.mp hrest.symm
      rw [String.intercalate_singleton, String.intercalate_singleton] at heq
      rw [heq]
    · have hnil' : rest' ≠ [] := fun hempty => hnil (by simpa [hempty] using hrest)
      rw [String.intercalate_cons_of_ne_nil hnil, String.intercalate_cons_of_ne_nil hnil'] at heq
      have hlist := congrArg String.toList heq
      simp only [String.toList_append, hseparator, List.append_assoc, List.cons_append] at hlist
      obtain ⟨htext, hjoined⟩ := eq_of_append_cons h.1 h'.1 hlist
      have hjoined' := String.toList_injective (List.append_cancel_left hjoined)
      rw [String.toList_injective htext, ih h.2 h'.2 hrest hjoined']

private theorem eq_of_intercalate_decimal {separator : String} {after : List Char}
    (hseparator : separator.toList = ',' :: after) {values others : List Int32}
    (hlength : values.length = others.length)
    (h : separator.intercalate (values.map decimal) = separator.intercalate (others.map decimal)) :
    values = others := by
  have hcomma (numbers : List Int32) : ∀ text ∈ numbers.map decimal, ',' ∉ text.toList := by
    rw [List.forall_mem_map]
    exact fun number _ => not_mem_decimal (by decide) (by decide) number
  apply decimal_injective.list_map
  exact eq_of_intercalate hseparator (hcomma values) (hcomma others) (by simpa using hlength) h

private theorem Color.arguments_injective : Function.Injective Color.arguments := by
  intro color other h
  have hvalues : color.values = other.values := eq_of_intercalate_decimal (by rfl) rfl h
  cases color
  cases other
  simpa [Color.values] using hvalues

end Numbers

section Tables

private theorem Note.frequency_eq_ok {note : Note} {frequency : Int32} :
    note.frequency = .ok frequency ↔ frequencies[note.pitch.toNat]? = some frequency := by
  unfold Note.frequency
  cases frequencies[note.pitch.toNat]? with
  | none => simp
  | some found => simp

private theorem Note.ticks_eq_ok {note : Note} {ticks : Int32} :
    note.ticks = .ok ticks ↔ durations[note.duration.toNat]? = some ticks := by
  unfold Note.ticks
  cases durations[note.duration.toNat]? with
  | none => simp
  | some found => simp

private theorem index_unique {table : List Int32} (hnodup : table.Nodup) {index other : UInt8}
    {value : Int32} (h : table[index.toNat]? = some value) (h' : table[other.toNat]? = some value) :
    index = other := by
  have hlt := (List.getElem?_eq_some_iff.mp h).1
  exact UInt8.toNat_inj.mp ((List.getElem?_inj hlt hnodup).mp (h.trans h'.symm))

private theorem Note.pitch_unique {note other : Note} {frequency : Int32}
    (h : note.frequency = .ok frequency) (h' : other.frequency = .ok frequency) :
    note.pitch = other.pitch :=
  index_unique (by decide) (frequency_eq_ok.mp h) (frequency_eq_ok.mp h')

private theorem Note.duration_unique {note other : Note} {ticks : Int32}
    (h : note.ticks = .ok ticks) (h' : other.ticks = .ok ticks) :
    note.duration = other.duration :=
  index_unique (by decide) (ticks_eq_ok.mp h) (ticks_eq_ok.mp h')

private theorem map_eq_of_mapM {ε α β γ : Type} {f : α → Except ε β} {g : α → γ}
    (hunique : ∀ x y z, f x = .ok z → f y = .ok z → g x = g y) {xs ys : List α} {zs : List β}
    (h : xs.mapM f = .ok zs) (h' : ys.mapM f = .ok zs) : xs.map g = ys.map g := by
  rw [mapM_eq_ok] at h h'
  induction h generalizing ys with
  | nil =>
    cases h'
    rfl
  | cons hx _ ih =>
    cases h' with
    | cons hy hrest => rw [List.map_cons, List.map_cons, hunique _ _ _ hx hy, ih hrest]

private theorem eq_of_frequencies_of_ticks {notes others : List Note}
    {frequencies ticks : List Int32} (hfrequencies : notes.mapM Note.frequency = .ok frequencies)
    (hfrequencies' : others.mapM Note.frequency = .ok frequencies)
    (hticks : notes.mapM Note.ticks = .ok ticks) (hticks' : others.mapM Note.ticks = .ok ticks) :
    notes = others := by
  have hpitches : notes.map Note.pitch = others.map Note.pitch :=
    map_eq_of_mapM (fun _ _ _ => Note.pitch_unique) hfrequencies hfrequencies'
  have hdurations : notes.map Note.duration = others.map Note.duration :=
    map_eq_of_mapM (fun _ _ _ => Note.duration_unique) hticks hticks'
  have hparts (song : List Note) :
      List.zipWith Note.mk (song.map Note.pitch) (song.map Note.duration) = song := by
    rw [List.zipWith_map, List.zipWith_self, List.map_id'']
    intro note
    rfl
  rw [← hparts notes, hpitches, hdurations, hparts others]

end Tables

section StateWrites

private theorem StateSlot.bit?_injective : Function.Injective StateSlot.bit? := by
  intro slot other h
  cases slot <;> cases other <;> first | rfl | cases h

private theorem eq_of_stateWrite {index other : Nat} {bit written : Int32}
    (h : s!"new_state[{index}] = {decimal bit}" = s!"new_state[{other}] = {decimal written}") :
    index = other ∧ bit = written := by
  change "new_state[" ++ index.repr ++ "] = " ++ decimal bit =
    "new_state[" ++ other.repr ++ "] = " ++ decimal written at h
  have hlist := congrArg String.toList h
  simp only [String.toList_append, List.append_assoc] at hlist
  have hbracket (n : Nat) : ']' ∉ n.repr.toList := not_mem_repr (by decide) n
  have hcut := List.append_cancel_left hlist
  obtain ⟨hindex, hbit⟩ := eq_of_append_cons (hbracket index) (hbracket other) hcut
  have hread := congrArg whole? hindex
  simp only [Nat.toList_repr, whole?_toDigits, Option.some.injEq] at hread
  exact ⟨hread, decimal_injective (String.toList_injective (List.append_cancel_left hbit))⟩

private theorem mem_stateWrites_iff {slots : List StateSlot} {index : Nat} {bit : Int32} :
    s!"new_state[{index}] = {decimal bit}" ∈ stateWrites slots ↔
      ∃ slot, slots[index]? = some slot ∧ slot.bit? = some bit := by
  rw [stateWrites, List.mem_filterMap]
  constructor
  · rintro ⟨⟨slot, other⟩, hmem, hwrite⟩
    obtain ⟨bit', hbit, htext⟩ := Option.map_eq_some_iff.mp hwrite
    obtain ⟨rfl, rfl⟩ := eq_of_stateWrite htext
    exact ⟨slot, List.mk_mem_zipIdx_iff_getElem?.mp hmem, hbit⟩
  · rintro ⟨slot, hslot, hbit⟩
    refine ⟨(slot, index), List.mk_mem_zipIdx_iff_getElem?.mpr hslot, ?_⟩
    exact Option.map_eq_some_iff.mpr ⟨bit, hbit, rfl⟩

private theorem eq_of_stateWrites {slots others : List StateSlot}
    (hlength : slots.length = others.length)
    (h : stateWrites slots = stateWrites others) : slots = others := by
  apply List.ext_getElem hlength
  intro index hindex hindex'
  apply StateSlot.bit?_injective
  apply Option.ext
  intro bit
  have hiff : s!"new_state[{index}] = {decimal bit}" ∈ stateWrites slots ↔ _ := mem_stateWrites_iff
  rw [h, mem_stateWrites_iff, List.getElem?_eq_getElem hindex,
    List.getElem?_eq_getElem hindex'] at hiff
  simpa using hiff.symm

end StateWrites

namespace Action

variable {action other : Action} {codes : List String}

private theorem kind_of_no_statements (h : action.statements = .ok []) :
    action.kind = .setState := by
  cases action with
  | sound notes =>
    simp only [statements, bind_eq_ok, pure_eq_ok] at h
    obtain ⟨_, _, _, _, hnil⟩ := h
    cases hnil
  | setState slots => rfl
  | _ => cases h

/-- Statements of different kinds of card do not begin with the same words. -/
theorem kind_eq_of_words : ∀ template ∈ action.templates, ∀ template' ∈ other.templates,
    template.before.toList <+: template'.before.toList → action.kind = other.kind := by
  cases action <;> cases other <;> (rw [templates, templates, kind, kind]; decide)

private theorem kind_eq_of_statements (h : action.statements = .ok codes)
    (h' : other.statements = .ok codes) : action.kind = other.kind := by
  cases codes with
  | nil => rw [kind_of_no_statements h, kind_of_no_statements h']
  | cons code rest =>
    have hwords {card : Action} (hcard : card.statements = .ok (code :: rest)) :
        ∃ template ∈ card.templates, template.before.toList <+: code.toList := by
      obtain ⟨template, htemplate, numeral, _, rfl⟩ :=
        exists_template_of_statements hcard code List.mem_cons_self
      refine ⟨template, htemplate, ?_⟩
      rw [String.toList_append, String.toList_append, List.append_assoc]
      exact List.prefix_append _ _
    obtain ⟨template, htemplate, hbegins⟩ := hwords h
    obtain ⟨template', htemplate', hbegins'⟩ := hwords h'
    rcases List.prefix_or_prefix_of_prefix hbegins hbegins' with hshort | hshort
    · exact kind_eq_of_words template htemplate template' htemplate' hshort
    · exact (kind_eq_of_words template' htemplate' template htemplate hshort).symm

section Kinds

private theorem eq_of_between (before after : String) {text text' : String}
    (h : before ++ text ++ after = before ++ text' ++ after) : text = text' :=
  (String.append_right_inj before).mp ((String.append_left_inj after).mp h)

private theorem move_unique {left right left' right' : Int32}
    (h : (move left right).statements = (move left' right').statements) :
    move left right = move left' right' := by
  obtain ⟨hleft, hrest⟩ := List.cons.inj (Except.ok.inj h)
  obtain ⟨hright, _⟩ := List.cons.inj hrest
  rw [decimal_injective ((String.append_right_inj "motor.left.target = ").mp hleft),
    decimal_injective ((String.append_right_inj "motor.right.target = ").mp hright)]

private theorem topColor_unique {color color' : Color}
    (h : (topColor color).statements = (topColor color').statements) :
    topColor color = topColor color' := by
  obtain ⟨hcolor, _⟩ := List.cons.inj (Except.ok.inj h)
  rw [Color.arguments_injective (eq_of_between "call leds.top(" ")" hcolor)]

private theorem bottomColor_unique {color color' : Color}
    (h : (bottomColor color).statements = (bottomColor color').statements) :
    bottomColor color = bottomColor color' := by
  obtain ⟨hleft, _⟩ := List.cons.inj (Except.ok.inj h)
  rw [Color.arguments_injective (eq_of_between "call leds.bottom.left(" ")" hleft)]

private theorem timer_unique {period period' : Int32}
    (h : (timer period).statements = (timer period').statements) :
    timer period = timer period' := by
  obtain ⟨hperiod, _⟩ := List.cons.inj (Except.ok.inj h)
  rw [decimal_injective ((String.append_right_inj "timer.period[0] = ").mp hperiod)]

private theorem setState_unique {slots slots' : Vector StateSlot stateSlots}
    (h : (setState slots).statements = (setState slots').statements) :
    setState slots = setState slots' := by
  have hlength : slots.toList.length = slots'.toList.length := by
    rw [Vector.length_toList, Vector.length_toList]
  have hslots := eq_of_stateWrites hlength (Except.ok.inj h)
  rw [Vector.toList_inj.mp hslots]

private theorem sound_unique {notes notes' : Vector Note soundNotes}
    (h : (sound notes).statements = .ok codes) (h' : (sound notes').statements = .ok codes) :
    sound notes = sound notes' := by
  simp only [statements, bind_eq_ok, pure_eq_ok] at h h'
  obtain ⟨frequencies, hfrequencies, ticks, hticks, rfl⟩ := h
  obtain ⟨frequencies', hfrequencies', ticks', hticks', hcodes⟩ := h'
  obtain ⟨hfirst, hrest⟩ := List.cons.inj hcodes
  obtain ⟨hsecond, _⟩ := List.cons.inj hrest
  have hlength {f : Note → Except Fault Int32} {found found' : List Int32}
      (hfound : notes.toList.mapM f = .ok found) (hfound' : notes'.toList.mapM f = .ok found') :
      found'.length = found.length := by
    rw [← (mapM_eq_ok.mp hfound).length_eq, ← (mapM_eq_ok.mp hfound').length_eq,
      Vector.length_toList, Vector.length_toList]
  obtain rfl : frequencies' = frequencies :=
    eq_of_intercalate_decimal (by rfl) (hlength hfrequencies hfrequencies')
      (eq_of_between "call math.copy(notes, [" "])" hfirst)
  obtain rfl : ticks' = ticks :=
    eq_of_intercalate_decimal (by rfl) (hlength hticks hticks')
      (eq_of_between "call math.copy(durations, [" "])" hsecond)
  have hnotes := eq_of_frequencies_of_ticks hfrequencies hfrequencies' hticks hticks'
  rw [Vector.toList_inj.mp hnotes]

end Kinds

/-- Actions with the same statements are the same. -/
theorem eq_of_statements (h : action.statements = .ok codes) (h' : other.statements = .ok codes) :
    action = other := by
  have hkind := kind_eq_of_statements h h'
  have hsame : action.statements = other.statements := h.trans h'.symm
  cases action with
  | move left right =>
    cases other with
    | move left' right' => exact move_unique hsame
    | _ => cases hkind
  | topColor color =>
    cases other with
    | topColor color' => exact topColor_unique hsame
    | _ => cases hkind
  | bottomColor color =>
    cases other with
    | bottomColor color' => exact bottomColor_unique hsame
    | _ => cases hkind
  | sound notes =>
    cases other with
    | sound notes' => exact sound_unique h h'
    | _ => cases hkind
  | timer period =>
    cases other with
    | timer period' => exact timer_unique hsame
    | _ => cases hkind
  | setState slots =>
    cases other with
    | setState slots' => exact setState_unique hsame
    | _ => cases hkind

section Code

private theorem cutAfterBreaks_statements (h : action.statements = .ok codes) (depth : Nat) :
    cutAfterBreaks (Line.textOf (codes.map (⟨depth, ·⟩))) =
      codes.map fun code => Line.text ⟨depth, code⟩ := by
  rw [cutAfterBreaks_textOf, List.map_map]
  · rfl
  · rw [List.forall_mem_map]
    exact fun code hcode => (isCode_of_statements h code hcode).isPrintable

private theorem code_eq_ok {depth : Nat} {text : String} :
    action.code depth = .ok text ↔
      ∃ codes, action.statements = .ok codes ∧ Line.textOf (codes.map (⟨depth, ·⟩)) = text := by
  rw [code, lines, map_eq_ok]
  simp only [bind_eq_ok, pure_eq_ok]
  constructor
  · rintro ⟨_, ⟨codes, hcodes, rfl⟩, htext⟩
    exact ⟨codes, hcodes, htext⟩
  · rintro ⟨codes, hcodes, htext⟩
    exact ⟨_, ⟨codes, hcodes, rfl⟩, htext⟩

private theorem text_injective (depth : Nat) :
    Function.Injective fun code => Line.text ⟨depth, code⟩ := by
  intro code code' h
  exact eq_of_between _ _ h

private theorem eq_of_code {depth : Nat} {text : String} (h : action.code depth = .ok text)
    (h' : other.code depth = .ok text) : action = other := by
  obtain ⟨codes, hcodes, rfl⟩ := code_eq_ok.mp h
  obtain ⟨codes', hcodes', heq⟩ := code_eq_ok.mp h'
  have hlines := congrArg cutAfterBreaks heq
  rw [cutAfterBreaks_statements hcodes, cutAfterBreaks_statements hcodes'] at hlines
  obtain rfl := (text_injective depth).list_map hlines
  exact eq_of_statements hcodes hcodes'

private theorem code_succ {depth : Nat} {text : String} (h : action.code depth = .ok text) :
    action.code (depth + 1) = .ok (indented text) := by
  obtain ⟨codes, hcodes, rfl⟩ := code_eq_ok.mp h
  refine code_eq_ok.mpr ⟨codes, hcodes, ?_⟩
  rw [indented, cutAfterBreaks_statements hcodes, Line.textOf, List.map_map, List.map_map]
  congr 2
  funext code
  apply String.toList_injective
  simp [Line.text, Line.content, List.replicate_succ]

end Code

/-- The code of an action loses nothing: wherever it stands, it is the code of one action only. In a
condition it is the code that stands directly in a handler, indented by one more tab. -/
theorem code_tells_action (h : action.InTables) (h' : other.InTables) :
    (∀ depth, ∃ text text', action.code depth = .ok text ∧ other.code depth = .ok text' ∧
      (text = text' → action = other)) ∧
    ∃ text, action.code Branch.handlerDepth = .ok text ∧
      action.code Branch.conditionDepth = .ok (indented text) := by
  have hcode {card : Action} (hcard : card.InTables) (depth : Nat) :
      ∃ text, card.code depth = .ok text := by
    obtain ⟨codes, hcodes⟩ := exists_statements hcard
    exact ⟨_, code_eq_ok.mpr ⟨codes, hcodes, rfl⟩⟩
  constructor
  · intro depth
    obtain ⟨text, htext⟩ := hcode h depth
    obtain ⟨text', htext'⟩ := hcode h' depth
    refine ⟨text, text', htext, htext', ?_⟩
    rintro rfl
    exact eq_of_code htext htext'
  · obtain ⟨text, htext⟩ := hcode h Branch.handlerDepth
    exact ⟨text, htext, code_succ htext⟩

def song (duration : UInt8) : Action :=
  sound #v[⟨0, 1⟩, ⟨1, 2⟩, ⟨2, 0⟩, ⟨3, duration⟩, ⟨4, 1⟩, ⟨0, 2⟩]

theorem code_tells_action_of_song :
    (song 1).InTables ∧ (song 2).InTables ∧
      (∀ depth, ∃ text text', (song 1).code depth = .ok text ∧ (song 2).code depth = .ok text' ∧
        (text = text' → song 1 = song 2)) ∧
      ∃ text, (song 1).code Branch.handlerDepth = .ok text ∧
        (song 1).code Branch.conditionDepth = .ok (indented text) := by
  have hone : (song 1).InTables := by
    change ∀ note ∈ Vector.toList _, Note.InTables note
    decide
  have hother : (song 2).InTables := by
    change ∀ note ∈ Vector.toList _, Note.InTables note
    decide
  exact ⟨hone, hother, code_tells_action hone hother⟩

/-- Slots that leave their bit alone have no statement. -/
example : (setState #v[.any, .on, .any, .off]).code Branch.conditionDepth =
    .ok "\t\tnew_state[1] = 1\n\t\tnew_state[3] = 0\n" := by decide +kernel

end Action

end VisualRules
