import VisualRules.CommandLine.Outcome
import VisualRules.Proofs.JsonValue
import VisualRules.Proofs.LineRanges
import VisualRules.Proofs.Modes

/-!
# Commands print a whole script or nothing

A command fails before it prints anything if its program cannot be loaded or compiled. After that
only one thing can go wrong, and the script is printed by then: there is no rule to point at.
-/

namespace VisualRules

def View.words (view : View) : List String :=
  (if view.advanced then ["--advanced"] else []) ++
  (view.highlight.elim [] fun rule => ["--highlight", toString rule]) ++
  (if view.map then ["--map"] else []) ++
  (if view.segments then ["--segments"] else [])

/-- The program as it is compiled, in advanced mode if that is asked for. -/
def Program.inMode (program : Program) (advanced : Bool) : Program :=
  if advanced then program.withAdvancedMode true else program

section Words

private theorem toList_repr_eq_cons (rule : Nat) :
    ∃ c cs, rule.repr.toList = c :: cs ∧ c.isDigit = true := by
  obtain ⟨c, cs, hcs, hc⟩ := Json.exists_toDigits_eq_cons rule
  exact ⟨c, cs, Nat.toList_repr.trans hcs, hc⟩

private theorem ruleNumber?_repr {rule : Nat} (h : rule < UInt64.size) :
    ruleNumber? rule.repr = some rule := by
  have hdigits : rule.repr.toList.all Char.isDigit = true := by
    rw [Nat.toList_repr, List.all_eq_true]
    exact fun c hc => Nat.isDigit_of_mem_toDigits (by decide) (by decide) hc
  have hnumber : Nat.ofDigitChars 10 rule.repr.toList 0 = rule := by
    rw [Nat.toList_repr, Nat.ofDigitChars_ten_toDigits]
  obtain ⟨c, cs, hcs, hc⟩ := toList_repr_eq_cons rule
  have hplus : c ≠ '+' := by
    rintro rfl
    cases hc
  rw [hcs] at hdigits hnumber
  rw [ruleNumber?, hcs]
  simp [hplus, hdigits, hnumber, h]

private theorem isFlag_repr (rule : Nat) : isFlag rule.repr = false := by
  obtain ⟨c, cs, hcs, hc⟩ := toList_repr_eq_cons rule
  have hminus : c ≠ '-' := by
    rintro rfl
    cases hc
  rw [isFlag, hcs]
  split
  · next heq =>
    cases heq
    exact absurd rfl hminus
  · rfl

namespace Command

variable {request : Request} {rest : List String}

private theorem read_dash (request : Request) (rest : List String) :
    read .compile request ("-" :: rest) = (request.addFile "-").bind (read .compile · rest) := by
  have hdash : ¬"-" = "--" ∧ asksForHelp "-" = false ∧ isFlag "-" = false := by decide
  rw [read.eq_def]
  simp [hdash]

private theorem read_switch {word : String} (h : word ∈ ["--advanced", "--map", "--segments"]) :
    read .compile request (word :: rest) =
      (request.addSwitch word).bind (read .compile · rest) := by
  have hword : ¬word = "--" ∧ asksForHelp word = false ∧ isFlag word = true ∧
      ¬word = "--highlight" ∧ attachedHighlight? word = none := by
    revert word
    decide
  rw [read.eq_def]
  simp [hword]

private theorem read_given {word : String} (hword : word ∈ ["--advanced", "--map", "--segments"])
    {before after : Request} {given : Bool} (hoff : given = false → after = before)
    (hon : given = true → before.addSwitch word = some after) (rest : List String) :
    read .compile before ((if given then [word] else []) ++ rest) = read .compile after rest := by
  cases given with
  | false =>
    rw [hoff rfl]
    rfl
  | true =>
    refine (read_switch hword).trans ?_
    rw [hon rfl]
    rfl

private theorem read_highlight {highlight : Option Nat} (h : ∀ rule ∈ highlight, rule < UInt64.size)
    (hnone : request.view.highlight = none) (rest : List String) :
    read .compile request
        ((highlight.elim [] fun rule => ["--highlight", toString rule]) ++ rest) =
      read .compile { request with view := { request.view with highlight := highlight } } rest := by
  cases highlight with
  | none =>
    obtain ⟨file, advanced, highlight, map, segments⟩ := request
    cases hnone
    rfl
  | some rule =>
    have hword : ¬"--highlight" = "--" ∧ asksForHelp "--highlight" = false ∧
        isFlag "--highlight" = true := by decide
    refine (read.eq_def ..).trans ?_
    simp [hword, isFlag_repr, Request.addHighlight, ruleNumber?_repr (h rule rfl), hnone]

private theorem parse?_words {view : View} (h : ∀ rule ∈ view.highlight, rule < UInt64.size) :
    parse? ("compile" :: "-" :: view.words) = some (.compile "-" view) := by
  obtain ⟨advanced, highlight, map, segments⟩ := view
  let given (advanced : Bool) (highlight : Option Nat) (map segments : Bool) : Request :=
    ⟨some "-", ⟨advanced, highlight, map, segments⟩⟩
  have hadvanced : ∀ rest, read .compile (given false none false false)
      ((if advanced then ["--advanced"] else []) ++ rest) =
        read .compile (given advanced none false false) rest :=
    read_given (by decide) (by rintro rfl; rfl) (by rintro rfl; rfl)
  have hhighlight : ∀ rest, read .compile (given advanced none false false)
      ((highlight.elim [] fun rule => ["--highlight", toString rule]) ++ rest) =
        read .compile (given advanced highlight false false) rest :=
    read_highlight h rfl
  have hmap : ∀ rest, read .compile (given advanced highlight false false)
      ((if map then ["--map"] else []) ++ rest) =
        read .compile (given advanced highlight map false) rest :=
    read_given (by decide) (by rintro rfl; rfl) (by rintro rfl; rfl)
  have hsegments : ∀ rest, read .compile (given advanced highlight map false)
      ((if segments then ["--segments"] else []) ++ rest) =
        read .compile (given advanced highlight map segments) rest :=
    read_given (by decide) (by rintro rfl; rfl) (by rintro rfl; rfl)
  calc parse? ("compile" :: "-" :: View.words ⟨advanced, highlight, map, segments⟩)
    _ = read .compile (given false none false false)
        (View.words ⟨advanced, highlight, map, segments⟩ ++ []) := by
      rw [parse?, read_dash, List.append_nil]
      rfl
    _ = read .compile (given advanced highlight map segments) [] := by
      simp only [View.words, List.append_assoc]
      rw [hadvanced, hhighlight, hmap, hsegments]
    _ = some (.compile "-" ⟨advanced, highlight, map, segments⟩) := rfl

end Command

end Words

namespace CommandLine

/-- What stands in the file is a program with this script, in advanced mode if that is asked for. -/
def Holds (content : Option String) (advanced : Bool) (program : Program) (script : Script) :
    Prop :=
  ∃ text, content = some text ∧ Program.load? text = some program ∧
    (program.inMode advanced).compile = .ok script

/-- What stands in the file can be loaded and compiled. -/
def Compiles (content : Option String) (advanced : Bool) : Prop :=
  ∃ program script, Holds content advanced program script

/-- Commands on standard input fail without a word printed if what stands there does not compile.
Otherwise they print all of it, and only a rule to point at can be missing. -/
structure AllOrNothing (content : Option String) : Prop where
  compile_words : ∀ view : View, (∀ rule ∈ view.highlight, rule < UInt64.size) →
    Command.parse? ("compile" :: "-" :: view.words) = some (.compile "-" view)
  check_words : Command.parse? ["check", "-"] = some (.check "-")
  compile_of_not_compiles : ∀ arguments view,
    Command.parse? arguments = some (.compile "-" view) → ¬Compiles content view.advanced →
      (run arguments content).ending.status = 1 ∧ (run arguments content).output = ""
  check_of_not_compiles : ∀ arguments, Command.parse? arguments = some (.check "-") →
    ¬Compiles content false →
      (run arguments content).ending.status = 1 ∧ (run arguments content).output = ""
  check_of_compiles : ∀ arguments, Command.parse? arguments = some (.check "-") →
    Compiles content false →
      (run arguments content).ending.status = 0 ∧ (run arguments content).output = ""
  compile_of_holds : ∀ arguments view program script,
    Command.parse? arguments = some (.compile "-" view) →
      Holds content view.advanced program script → (run arguments content).ending.status =
        if view.highlight.any (program.rules.length ≤ ·) then 1 else 0
  output_of_highlight : ∀ arguments others view,
    Command.parse? arguments = some (.compile "-" view) →
      Command.parse? others = some (.compile "-" { view with highlight := none }) →
        (run arguments content).output = (run others content).output
  check_eq_compile : ∀ arguments others view, Command.parse? arguments = some (.check "-") →
    Command.parse? others = some (.compile "-" view) → view.advanced = false →
      view.highlight = none →
        (run arguments content).ending.status = (run others content).ending.status
  status_of_advanced : ∀ arguments others view,
    Command.parse? arguments = some (.compile "-" view) →
      Command.parse? others = some (.compile "-" { view with advanced := true }) →
        (run arguments content).ending.status = 0 → (run others content).ending.status = 0

variable {file : String} {content : Option String} {advanced : Bool} {program : Program}
  {script : Script}

private theorem load_eq_ok : load file content = .ok program ↔
    ∃ text, content = some text ∧ Program.load? text = some program := by
  unfold load
  cases content with
  | none => simp
  | some text => cases hload : Program.load? text <;> simp [hload]

private theorem loadAndCompile_eq_ok {compiled : Program} :
    loadAndCompile file advanced content = .ok (compiled, script) ↔
      ∃ program, Holds content advanced program script ∧ program.inMode advanced = compiled := by
  rw [loadAndCompile, bind_eq_ok]
  simp only [bind_eq_ok, pure_eq_ok, Prod.mk.injEq, load_eq_ok, compileScript, mapError_eq_ok]
  constructor
  · rintro ⟨program, ⟨text, rfl, hload⟩, _, hcompile, rfl, rfl⟩
    exact ⟨program, ⟨text, rfl, hload, hcompile⟩, rfl⟩
  · rintro ⟨program, ⟨text, rfl, hload, hcompile⟩, rfl⟩
    exact ⟨program, ⟨text, rfl, hload⟩, script, hcompile, rfl, rfl⟩

private theorem loadAndCompile_of_holds (h : Holds content advanced program script)
    (file : String) :
    loadAndCompile file advanced content = .ok (program.inMode advanced, script) :=
  loadAndCompile_eq_ok.mpr ⟨program, h, rfl⟩

private theorem exists_error_of_not_compiles (h : ¬Compiles content advanced) (file : String) :
    ∃ error, loadAndCompile file advanced content = .error error := by
  cases hresult : loadAndCompile file advanced content with
  | error error => exact ⟨error, rfl⟩
  | ok result =>
    obtain ⟨program, hholds, _⟩ := loadAndCompile_eq_ok.mp hresult
    exact absurd ⟨program, result.2, hholds⟩ h

theorem run_eq {arguments : List String} {command : Command}
    (h : Command.parse? arguments = some command) (content : Option String) :
    run arguments content = runCommand command content := by
  rw [run, h]

section Commands

variable {view : View}

private theorem compile_of_not_compiles (h : ¬Compiles content view.advanced) (file : String) :
    ∃ error, runCommand (.compile file view) content = ⟨"", .failed error⟩ := by
  obtain ⟨error, herror⟩ := exists_error_of_not_compiles h file
  exact ⟨error, by rw [runCommand, herror]⟩

private theorem check_of_not_compiles (h : ¬Compiles content false) (file : String) :
    ∃ error, runCommand (.check file) content = ⟨"", .failed error⟩ := by
  obtain ⟨error, herror⟩ := exists_error_of_not_compiles h file
  exact ⟨error, by rw [runCommand, herror]⟩

theorem compile_of_holds (h : Holds content view.advanced program script) (file : String) :
    runCommand (.compile file view) content =
      ⟨script.shown view, view.highlight.elim .compiled (script.pointAt file)⟩ := by
  rw [runCommand, loadAndCompile_of_holds h]

private theorem exists_check_of_compiles (h : Compiles content false) (file : String) :
    ∃ summary, runCommand (.check file) content = ⟨"", .checked summary⟩ := by
  obtain ⟨program, script, hholds⟩ := h
  exact ⟨_, by rw [runCommand, loadAndCompile_of_holds hholds]⟩

end Commands

end CommandLine

theorem Program.rules_inMode (program : Program) (advanced : Bool) :
    (program.inMode advanced).rules = program.rules := by
  cases advanced <;> rfl

theorem Program.rulePositions_of_compile {program : Program} {script : Script}
    (h : program.compile = .ok script) : script.rulePositions.length = program.rules.length ∧
      ∀ position ∈ script.rulePositions, position < script.segments.length := by
  obtain ⟨passages, assembly, hread, _, _, hlayout, rfl⟩ := exists_of_compile h
  have hlength : assembly.layout.rules.length = program.rules.length := by
    rw [hlayout.length_rules, (reactions_eq_ok.mp hread).length_eq, List.length_map]
  refine ⟨hlength, fun position hposition => ?_⟩
  rw [assembly.length_script]
  exact hlayout.rules_lt_size position hposition

private theorem Script.status_pointAt {program : Program} {script : Script}
    (h : program.compile = .ok script) (file : String) (rule : Nat) :
    (script.pointAt file rule).status = if program.rules.length ≤ rule then 1 else 0 := by
  obtain ⟨hlength, hpositions⟩ := Program.rulePositions_of_compile h
  split
  · next hle =>
    have hnone : script.segmentOfRule? rule = none :=
      List.getElem?_eq_none (hlength.trans_le hle)
    rw [pointAt, hnone]
    rfl
  · next hlt =>
    have hrule : rule < script.rulePositions.length := by omega
    have hsegment : script.segmentOfRule? rule = some script.rulePositions[rule] :=
      List.getElem?_eq_getElem hrule
    have hcode := List.getElem?_eq_getElem (hpositions _ (List.getElem_mem hrule))
    rw [pointAt, hsegment, bytesOfRule?_eq hsegment hcode]
    rfl

namespace CommandLine

variable {content : Option String} {program : Program} {script : Script} {view : View}

private theorem status_of_holds (h : Holds content view.advanced program script) (file : String) :
    (runCommand (.compile file view) content).ending.status =
      if view.highlight.any (program.rules.length ≤ ·) then 1 else 0 := by
  rw [compile_of_holds h]
  obtain ⟨_, _, _, hcompile⟩ := h
  cases hhighlight : view.highlight with
  | none => rfl
  | some rule =>
    rw [Option.elim_some, Script.status_pointAt hcompile, Program.rules_inMode]
    simp

/-- The rule to point at does not matter to what is printed. -/
theorem output_highlight (file : String) (view : View) (highlight : Option Nat)
    (content : Option String) :
    (runCommand (.compile file { view with highlight := highlight }) content).output =
      (runCommand (.compile file view) content).output := by
  simp only [runCommand]
  cases loadAndCompile file view.advanced content <;> rfl

/-- What compiles compiles in advanced mode too. -/
theorem exists_holds_advanced {advanced : Bool} (h : Holds content advanced program script) :
    ∃ script, Holds content true program script := by
  obtain ⟨text, rfl, hload, hcompile⟩ := h
  have hadvanced : ∃ script, (program.inMode true).compile = .ok script := by
    cases advanced with
    | true => exact ⟨script, hcompile⟩
    | false =>
      obtain ⟨rules, mode⟩ := program
      cases mode with
      | true => exact ⟨script, hcompile⟩
      | false =>
        obtain ⟨script, hscript, _⟩ := Program.exists_advanced_of_basic hcompile
        exact ⟨script, hscript⟩
  obtain ⟨script, hscript⟩ := hadvanced
  exact ⟨script, text, rfl, hload, hscript⟩

private theorem compiles_of_status
    (h : (runCommand (.compile file view) content).ending.status = 0) :
    Compiles content view.advanced := by
  by_contra hnot
  obtain ⟨error, herror⟩ := compile_of_not_compiles hnot file
  rw [herror] at h
  cases h

/-- Whatever stands on standard input, no command prints half of a script. -/
theorem all_or_nothing (content : Option String) : AllOrNothing content := by
  constructor
  case compile_words => exact fun view => Command.parse?_words
  case check_words => decide
  case compile_of_not_compiles =>
    intro arguments view hcommand hnot
    obtain ⟨error, herror⟩ := compile_of_not_compiles hnot "-"
    rw [run_eq hcommand, herror]
    exact ⟨rfl, rfl⟩
  case check_of_not_compiles =>
    intro arguments hcommand hnot
    obtain ⟨error, herror⟩ := check_of_not_compiles hnot "-"
    rw [run_eq hcommand, herror]
    exact ⟨rfl, rfl⟩
  case check_of_compiles =>
    intro arguments hcommand hcompiles
    obtain ⟨summary, hsummary⟩ := exists_check_of_compiles hcompiles "-"
    rw [run_eq hcommand, hsummary]
    exact ⟨rfl, rfl⟩
  case compile_of_holds =>
    intro arguments view program script hcommand hholds
    rw [run_eq hcommand]
    exact status_of_holds hholds "-"
  case output_of_highlight =>
    intro arguments others view hcommand hothers
    rw [run_eq hcommand, run_eq hothers]
    exact (output_highlight "-" view none content).symm
  case check_eq_compile =>
    intro arguments others view hcheck hcompile hadvanced hhighlight
    rw [run_eq hcheck, run_eq hcompile]
    by_cases hcompiles : Compiles content false
    · obtain ⟨summary, hsummary⟩ := exists_check_of_compiles hcompiles "-"
      obtain ⟨program, script, hholds⟩ := hcompiles
      rw [← hadvanced] at hholds
      rw [hsummary, status_of_holds hholds, hhighlight]
      rfl
    · obtain ⟨error, herror⟩ := check_of_not_compiles hcompiles "-"
      rw [← hadvanced] at hcompiles
      obtain ⟨error', herror'⟩ := compile_of_not_compiles hcompiles "-"
      rw [herror, herror']
      rfl
  case status_of_advanced =>
    intro arguments others view hcommand hothers hstatus
    rw [run_eq hcommand] at hstatus
    rw [run_eq hothers]
    obtain ⟨program, script, hholds⟩ := compiles_of_status hstatus
    obtain ⟨advanced, hadvanced⟩ := exists_holds_advanced hholds
    rw [status_of_holds hholds] at hstatus
    have hothers_status : (runCommand (.compile "-" { view with advanced := true })
        content).ending.status = _ := status_of_holds hadvanced "-"
    exact hothers_status.trans hstatus

end CommandLine

end VisualRules
