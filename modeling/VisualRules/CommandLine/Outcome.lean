import VisualRules.CommandLine.Command
import VisualRules.CommandLine.Ending
import VisualRules.Program.Document

namespace VisualRules

/-- What a command prints to standard output, and how it ends. -/
structure Outcome where
  output : String
  ending : Ending
  deriving DecidableEq, Repr

namespace Script

/-- The segments, each below a line with its number. -/
def listing (script : Script) : String :=
  String.join (script.segments.zipIdx.map fun (segment, index) => s!"-- segment {index}\n" ++ segment)

/-- One line for each rule: its segment, and its line counted from one. -/
def ruleMap (script : Script) : String :=
  String.join (script.rulePositions.zipIdx.map fun (segment, rule) =>
    s!"-- rule {rule} -> segment {segment}, line {(script.lineOfRule? rule).getD 0 + 1}\n")

def shown (script : Script) (view : View) : String :=
  (if view.segments then script.listing else script.text) ++
    if view.map then script.ruleMap else ""

def pointAt (script : Script) (file : String) (rule : Nat) : Ending :=
  match script.segmentOfRule? rule, script.bytesOfRule? rule with
  | some segment, some bytes => .highlighted ⟨file, rule, segment, bytes⟩
  | _, _ => .failed (.noRule rule)

end Script

namespace CommandLine

def load (file : String) (content : Option String) : Except RunError Program :=
  match content with
  | none => .error (.unreadable file)
  | some text =>
    match Program.load? text with
    | some program => .ok program
    | none => .error (.invalidProgram file)

def compileScript (file : String) (program : Program) : Except RunError Script :=
  program.compile.mapError (.failed file)

/-- The program in a file, in advanced mode if that is asked for, and its script. -/
def loadAndCompile (file : String) (advanced : Bool) (content : Option String) :
    Except RunError (Program × Script) := do
  let program ← load file content
  let program := if advanced then program.withAdvancedMode true else program
  return (program, ← compileScript file program)

def runCommand (command : Command) (content : Option String) : Outcome :=
  match command with
  | .help => ⟨usage, .help⟩
  | .compile file view =>
    match loadAndCompile file view.advanced content with
    | .error error => ⟨"", .failed error⟩
    | .ok (_, script) =>
      ⟨script.shown view, view.highlight.elim .compiled (script.pointAt file)⟩
  | .check file =>
    match loadAndCompile file false content with
    | .error error => ⟨"", .failed error⟩
    | .ok (program, script) =>
      ⟨"", .checked ⟨file, program.rules.length, script.segments.length, script.features⟩⟩

/-- Runs a command line. `content` is what stands in the file that it names, if it can be read. -/
def run (arguments : List String) (content : Option String) : Outcome :=
  match Command.parse? arguments with
  | none => ⟨"", .wrongArguments⟩
  | some command => runCommand command content

end CommandLine

end VisualRules
