import VisualRules.Proofs.Fitting
import VisualRules.Proofs.Statements

/-!
# Names in the code

The code of a line, cut into words, and the variables and subroutines of the script among them.
Numbers name nothing, so what a line mentions is known although the numbers on it are not.
-/

namespace VisualRules

/-- The character can be part of a name. -/
def isWordChar (c : Char) : Bool := c.isAlphanum || c = '_'

/-- The longest stretches of a text that consist of such characters. -/
def wordsIn (text : List Char) : List (List Char) :=
  (text.splitOnP fun c => !isWordChar c).filter fun word => !word.isEmpty

/-- What the script declares for the use of its handlers. -/
inductive Symbol
  | angle
  | state
  | newState
  | notes
  | durations
  | noteIndex
  | wave
  | displayState
  deriving DecidableEq, Repr

namespace Symbol

def all : List Symbol := [angle, state, newState, notes, durations, noteIndex, wave, displayState]

theorem mem_all (symbol : Symbol) : symbol ∈ all := by cases symbol <;> decide

def name : Symbol → String
  | angle => "angle"
  | state => "state"
  | newState => "new_state"
  | notes => "notes"
  | durations => "durations"
  | noteIndex => "note_index"
  | wave => "wave"
  | displayState => "display_state"

/-- What a declaration begins with. -/
def keyword : Symbol → String
  | displayState => "sub "
  | _ => "var "

end Symbol

def symbolsIn (text : String) : List Symbol :=
  Symbol.all.filter fun symbol => (wordsIn text.toList).contains symbol.name.toList

theorem mem_symbolsIn {text : String} {symbol : Symbol} :
    symbol ∈ symbolsIn text ↔ symbol.name.toList ∈ wordsIn text.toList := by
  rw [symbolsIn, List.mem_filter, List.contains_iff_mem]
  exact and_iff_right symbol.mem_all

section Words

variable {c : Char} {text other : List Char}

@[simp] theorem wordsIn_nil : wordsIn [] = [] := rfl

private theorem wordsIn_append_cons (hc : isWordChar c = false) (text other : List Char) :
    wordsIn (text ++ c :: other) = wordsIn text ++ wordsIn other := by
  rw [wordsIn, List.splitOnP_append_cons text other (by rw [hc]; rfl), List.filter_append]
  rfl

private theorem wordsIn_cons (hc : isWordChar c = false) (text : List Char) :
    wordsIn (c :: text) = wordsIn text := by
  simpa using wordsIn_append_cons hc [] text

theorem wordsIn_replicate_append (hc : isWordChar c = false) (n : Nat) (text : List Char) :
    wordsIn (List.replicate n c ++ text) = wordsIn text := by
  induction n with
  | zero => rfl
  | succ n ih => rw [List.replicate_succ, List.cons_append, wordsIn_cons hc, ih]

private theorem wordsIn_append
    (h : text.getLast?.all (!isWordChar ·) = true ∨ other.head?.all (!isWordChar ·) = true) :
    wordsIn (text ++ other) = wordsIn text ++ wordsIn other := by
  rcases h with hlast | hhead
  · rcases List.eq_nil_or_concat text with rfl | ⟨front, c, rfl⟩
    · rfl
    · have hc : isWordChar c = false := by simpa using hlast
      have hfront := wordsIn_append_cons hc front []
      rw [List.concat_eq_append, List.append_assoc, List.singleton_append, wordsIn_append_cons hc,
        hfront, wordsIn_nil, List.append_nil]
  · cases other with
    | nil => simp
    | cons c rest =>
      have hc : isWordChar c = false := by simpa using hhead
      rw [wordsIn_append_cons hc, wordsIn_cons hc]

private theorem mem_of_mem_splitOnP {α : Type} {p : α → Bool} {xs part : List α} {x : α}
    (hpart : part ∈ xs.splitOnP p) (hx : x ∈ part) : x ∈ xs := by
  induction xs generalizing part with
  | nil =>
    rw [List.splitOnP_nil, List.mem_singleton] at hpart
    rwa [hpart] at hx
  | cons first rest ih =>
    rw [List.splitOnP_cons_eq_if_modifyHead] at hpart
    split at hpart
    · rcases List.mem_cons.mp hpart with rfl | hrest
      · cases hx
      · exact List.mem_cons_of_mem first (ih hrest hx)
    · cases hparts : rest.splitOnP p with
      | nil =>
        rw [hparts] at hpart
        cases hpart
      | cons head tail =>
        rw [hparts, List.modifyHead_cons] at hpart
        rw [hparts] at ih
        rcases List.mem_cons.mp hpart with rfl | htail
        · rcases List.mem_cons.mp hx with rfl | hhead
          · exact List.mem_cons_self
          · exact List.mem_cons_of_mem first (ih List.mem_cons_self hhead)
        · exact List.mem_cons_of_mem first (ih (List.mem_cons_of_mem head htail) hx)

private theorem mem_of_mem_wordsIn {word : List Char} (hword : word ∈ wordsIn text)
    (hc : c ∈ word) :
    c ∈ text :=
  mem_of_mem_splitOnP (List.mem_filter.mp hword).1 hc

end Words

section Mentions

variable {text other before after numeral : String} {symbol : Symbol}

private theorem symbolsIn_of_isNumeral (h : IsNumeral numeral) : symbolsIn numeral = [] := by
  rw [List.eq_nil_iff_forall_not_mem]
  intro symbol hsymbol
  have hletter : symbol.name.toList.any (!isNumeralChar ·) = true := by cases symbol <;> decide
  obtain ⟨c, hc, hletter⟩ := List.any_eq_true.mp hletter
  have hnumeral := List.all_eq_true.mp h c (mem_of_mem_wordsIn (mem_symbolsIn.mp hsymbol) hc)
  rw [hnumeral] at hletter
  cases hletter

/-- A text that ends and one that begins where no name can go on. -/
def EndsApart (text : String) : Prop := text.toList.getLast?.all (!isWordChar ·) = true

def BeginsApart (text : String) : Prop := text.toList.head?.all (!isWordChar ·) = true

instance (text : String) : Decidable (EndsApart text) :=
  inferInstanceAs (Decidable (text.toList.getLast?.all (!isWordChar ·) = true))

instance (text : String) : Decidable (BeginsApart text) :=
  inferInstanceAs (Decidable (text.toList.head?.all (!isWordChar ·) = true))

private theorem BeginsApart.append (h : BeginsApart before) (hne : before.toList ≠ []) :
    BeginsApart (before ++ after) := by
  rwa [BeginsApart, String.toList_append, List.head?_append_of_ne_nil _ hne]

private theorem mem_symbolsIn_append (h : EndsApart text ∨ BeginsApart other) :
    symbol ∈ symbolsIn (text ++ other) ↔ symbol ∈ symbolsIn text ∨ symbol ∈ symbolsIn other := by
  have hwords : wordsIn (text.toList ++ other.toList) =
      wordsIn text.toList ++ wordsIn other.toList := wordsIn_append h
  simp only [mem_symbolsIn, String.toList_append, hwords, List.mem_append]

private theorem symbolsIn_append_subset {symbols : List Symbol}
    (h : EndsApart text ∨ BeginsApart other)
    (htext : symbolsIn text ⊆ symbols) (hother : symbolsIn other ⊆ symbols) :
    symbolsIn (text ++ other) ⊆ symbols := by
  intro symbol hsymbol
  rcases (mem_symbolsIn_append h).mp hsymbol with hmem | hmem
  · exact htext hmem
  · exact hother hmem

private theorem symbolsIn_numeral_subset (h : IsNumeral numeral) (symbols : List Symbol) :
    symbolsIn numeral ⊆ symbols := by
  rw [symbolsIn_of_isNumeral h]
  exact List.nil_subset symbols

/-- Only the fixed words around a number name something. -/
theorem symbolsIn_template_subset {symbols : List Symbol} (hnumeral : IsNumeral numeral)
    (hends : EndsApart before) (hbefore : symbolsIn before ⊆ symbols)
    (hbegins : BeginsApart after) (hafter : symbolsIn after ⊆ symbols) :
    symbolsIn (before ++ numeral ++ after) ⊆ symbols :=
  symbolsIn_append_subset (.inr hbegins)
    (symbolsIn_append_subset (.inl hends) hbefore (symbolsIn_numeral_subset hnumeral symbols))
    hafter

end Mentions

namespace Action

/-- A sound card names the note queue, a state card the next state. No other card names anything
that has to be declared. -/
def symbols : Action → List Symbol
  | sound _ => [.notes, .durations, .noteIndex]
  | setState _ => [.newState]
  | _ => []

private theorem symbolsIn_templates {action : Action} : ∀ template ∈ action.templates,
    (EndsApart template.before ∧ symbolsIn template.before ⊆ action.symbols) ∧
      BeginsApart template.after ∧ symbolsIn template.after ⊆ action.symbols := by
  cases action <;> (simp only [templates, symbols]; decide)

private theorem symbolsIn_statements {action : Action} {codes : List String}
    (h : action.statements = .ok codes) : ∀ code ∈ codes, symbolsIn code ⊆ action.symbols := by
  intro code hcode
  obtain ⟨template, htemplate, numeral, hnumeral, rfl⟩ := exists_template_of_statements h code hcode
  obtain ⟨⟨hends, hbefore⟩, hbegins, hafter⟩ := symbolsIn_templates template htemplate
  exact symbolsIn_template_subset hnumeral hends hbefore hbegins hafter

end Action

namespace Variable

def symbols : Variable → List Symbol
  | angle => [.angle]
  | state _ => [.state]
  | _ => []

private theorem symbolsIn_indexed {name : String} {symbols : List Symbol} (hends : EndsApart name)
    (hname : symbolsIn name ⊆ symbols) (index : Nat) :
    symbolsIn (name ++ index.repr ++ "]") ⊆ symbols := by
  have hbracket : symbolsIn "]" = [] := by decide
  apply symbolsIn_template_subset (isNumeral_repr index) hends hname (by decide)
  rw [hbracket]
  exact List.nil_subset symbols

private theorem symbolsIn_text (operand : Variable) : symbolsIn operand.text ⊆ operand.symbols := by
  cases operand with
  | button which =>
    show symbolsIn ("button." ++ which.name) ⊆ []
    cases which <;> decide
  | horizontal sensor =>
    show symbolsIn ("prox.horizontal[" ++ sensor.repr ++ "]") ⊆ []
    exact symbolsIn_indexed (by decide) (by decide) sensor
  | ground sensor =>
    show symbolsIn ("prox.ground.delta[" ++ sensor.repr ++ "]") ⊆ []
    exact symbolsIn_indexed (by decide) (by decide) sensor
  | angle => decide
  | state slot =>
    show symbolsIn ("state[" ++ slot.repr ++ "]") ⊆ [.state]
    exact symbolsIn_indexed (by decide) (by decide) slot

end Variable

namespace Clause

private theorem symbolsIn_text (clause : Clause) :
    symbolsIn clause.text ⊆ clause.operand.symbols := by
  have hcomparison (comparison : Comparison) : BeginsApart (" " ++ comparison.text ++ " ") ∧
      EndsApart (" " ++ comparison.text ++ " ") ∧
        symbolsIn (" " ++ comparison.text ++ " ") = [] := by
    cases comparison <;> decide
  obtain ⟨hbegins, hends, hnone⟩ := hcomparison clause.comparison
  have htext : clause.text = clause.operand.text ++
      (" " ++ clause.comparison.text ++ " " ++ decimal clause.bound) := by
    simp [text, String.append_assoc]
  have hbound : symbolsIn (" " ++ clause.comparison.text ++ " " ++ decimal clause.bound) ⊆
      clause.operand.symbols := by
    apply symbolsIn_append_subset (.inl hends)
    · rw [hnone]
      exact List.nil_subset _
    · exact symbolsIn_numeral_subset (isNumeral_decimal clause.bound) _
  rw [htext]
  exact symbolsIn_append_subset (.inr (hbegins.append (by simp))) clause.operand.symbolsIn_text
    hbound

private theorem symbolsIn_testOf {clauses : List Clause} {symbols : List Symbol}
    (h : ∀ clause ∈ clauses, clause.operand.symbols ⊆ symbols) :
    symbolsIn (testOf clauses) ⊆ symbols := by
  unfold testOf
  induction clauses with
  | nil =>
    show symbolsIn "" ⊆ symbols
    exact List.nil_subset symbols
  | cons clause clauses ih =>
    rw [List.forall_mem_cons] at h
    have hclause := List.Subset.trans clause.symbolsIn_text h.1
    by_cases hnil : clauses = []
    · subst hnil
      simpa using hclause
    · have hand : symbolsIn " and " = [] := by decide
      have hne : clauses.map text ≠ [] := mt List.map_eq_nil_iff.mp hnil
      rw [List.map_cons, String.intercalate_cons_of_ne_nil hne, String.append_assoc]
      apply symbolsIn_append_subset (.inr (BeginsApart.append (by decide) (by decide))) hclause
      apply symbolsIn_append_subset (.inl (by decide))
      · rw [hand]
        exact List.nil_subset symbols
      · exact ih h.2

end Clause

/-- What the readings of the event have to be declared for. -/
def Event.symbols (event : Event) : List Symbol := if event.handler = .tilt then [.angle] else []

def Reaction.symbols (reaction : Reaction) : List Symbol :=
  reaction.event.symbols ++ (if reaction.stateFilter.isSome then [.state] else []) ++
    reaction.actions.flatMap Action.symbols

private theorem SensorBand.symbols_of_mem_clauses {n : Nat} {band : SensorBand n}
    {ofSensor : Nat → Variable} (h : ∀ sensor, (ofSensor sensor).symbols = []) :
    ∀ clause ∈ band.clauses ofSensor, clause.operand.symbols = [] := by
  intro clause hclause
  obtain ⟨⟨test, sensor⟩, _, hsome⟩ := List.mem_filterMap.mp hclause
  cases test with
  | any => cases hsome
  | below => cases hsome; exact h sensor
  | above => cases hsome; exact h sensor

theorem symbols_of_mem_tiltClauses (target : Int32) :
    ∀ clause ∈ tiltClauses target, clause.operand.symbols = [.angle] := by
  intro clause hclause
  rw [tiltClauses, List.mem_append, List.mem_ite_nil_left, List.mem_ite_nil_left] at hclause
  rcases hclause with ⟨_, hmem⟩ | ⟨_, hmem⟩
  · rw [List.mem_singleton.mp hmem]
    rfl
  · rw [List.mem_singleton.mp hmem]
    rfl

theorem Event.symbols_of_mem_clauses (event : Event) :
    ∀ clause ∈ event.clauses, clause.operand.symbols = event.symbols := by
  cases event with
  | buttons pressed =>
    intro clause hclause
    obtain ⟨pair, _, rfl⟩ := List.mem_map.mp hclause
    rfl
  | proximity band => exact SensorBand.symbols_of_mem_clauses fun _ => rfl
  | groundProximity band => exact SensorBand.symbols_of_mem_clauses fun _ => rfl
  | tap | clap | timeout => nofun
  | tilt mode angle =>
    cases mode with
    | tap => nofun
    | roll => exact symbols_of_mem_tiltClauses _
    | pitch => exact symbols_of_mem_tiltClauses _

private theorem StateFilter.symbols_of_mem_clauses (filter : StateFilter) :
    ∀ clause ∈ filter.clauses, clause.operand.symbols = [.state] := by
  intro clause hclause
  obtain ⟨⟨slot, index⟩, _, hsome⟩ := List.mem_filterMap.mp hclause
  obtain ⟨bit, _, rfl⟩ := Option.map_eq_some_iff.mp hsome
  rfl

namespace Reaction

variable {reaction : Reaction} {branch : Branch}

private theorem symbols_of_mem_condition {clauses : List Clause}
    (h : reaction.condition? = some clauses) :
    ∀ clause ∈ clauses, clause.operand.symbols ⊆ reaction.symbols := by
  have hevent : reaction.event.symbols ⊆ reaction.symbols := by simp [symbols]
  have hfilter (filter : StateFilter) (heq : reaction.stateFilter = some filter) :
      ∀ clause ∈ filter.clauses, clause.operand.symbols ⊆ reaction.symbols := by
    intro clause hclause
    rw [filter.symbols_of_mem_clauses clause hclause]
    simp [symbols, heq]
  intro clause hclause
  unfold condition? at h
  split at h
  · cases h
    rcases List.mem_append.mp hclause with hmem | hmem
    · rw [reaction.event.symbols_of_mem_clauses clause hmem]
      exact hevent
    · cases heq : reaction.stateFilter with
      | none =>
        rw [heq] at hmem
        cases hmem
      | some filter =>
        rw [heq] at hmem
        exact hfilter filter heq clause hmem
  · obtain ⟨filter, hsome, rfl⟩ := Option.map_eq_some_iff.mp h
    exact hfilter filter (Option.filter_eq_some_iff.mp hsome).1 clause hclause

private theorem symbolsIn_preparation {line : Line} (h : line ∈ reaction.preparation) :
    symbolsIn line.code ⊆ reaction.event.symbols := by
  unfold preparation at h
  split at h
  · unfold Event.preparation at h
    split at h
    · next heq =>
      rw [List.mem_singleton.mp h, heq]
      show symbolsIn "call math.atan2(angle, acc[1], acc[2])" ⊆ [.angle]
      decide
    · next heq =>
      rw [List.mem_singleton.mp h, heq]
      show symbolsIn "call math.atan2(angle, acc[0], acc[2])" ⊆ [.angle]
      decide
    · cases h
  · cases h

private theorem symbolsIn_actionLines {depth : Nat} {body : List Line}
    (h : Branch.actionLines reaction.actions depth = .ok body) :
    ∀ line ∈ body, symbolsIn line.code ⊆ reaction.actions.flatMap Action.symbols := by
  intro line hline symbol hsymbol
  obtain ⟨_, action, haction, codes, hcodes, hcode⟩ := Branch.mem_actionLines h hline
  have hnamed := Action.symbolsIn_statements hcodes line.code hcode hsymbol
  exact List.mem_flatMap.mpr ⟨action, haction, hnamed⟩

/-- The script of a rule names what its cards need and nothing else. -/
theorem symbolsIn_branch (h : reaction.branch = .ok branch) :
    ∀ line ∈ branch.lines, symbolsIn line.code ⊆ reaction.symbols := by
  have hpreparation (line : Line) (hline : line ∈ reaction.preparation) :
      symbolsIn line.code ⊆ reaction.symbols :=
    List.Subset.trans (symbolsIn_preparation hline) (by simp [symbols])
  have hbody {depth : Nat} {body : List Line}
      (hlines : Branch.actionLines reaction.actions depth = .ok body) (line : Line)
      (hline : line ∈ body) : symbolsIn line.code ⊆ reaction.symbols :=
    List.Subset.trans (symbolsIn_actionLines hlines line hline) (List.subset_append_right _ _)
  intro line hline
  cases hcondition : reaction.condition? with
  | none =>
    obtain ⟨body, hlines, heq⟩ := lines_of_no_condition h hcondition
    rw [heq, List.mem_append] at hline
    exact hline.elim (hpreparation line) (hbody hlines line)
  | some clauses =>
    obtain ⟨body, hlines, heq⟩ := lines_of_condition h hcondition
    simp only [heq, List.mem_append, List.mem_cons, List.not_mem_nil, or_false] at hline
    have hclauses := Clause.symbolsIn_testOf (symbols_of_mem_condition hcondition)
    have hfixed (code : String) (hnone : symbolsIn code = []) :
        symbolsIn code ⊆ reaction.symbols := by
      rw [hnone]
      exact List.nil_subset _
    rcases hline with (hmem | rfl | hmem) | rfl
    · exact hpreparation line hmem
    · apply symbolsIn_append_subset (.inr (by decide)) _ (hfixed " then" (by decide))
      exact symbolsIn_append_subset (.inl (by decide)) (hfixed "if " (by decide)) hclauses
    · exact hbody hlines line hmem
    · exact hfixed "end" (by decide)

end Reaction

end VisualRules
