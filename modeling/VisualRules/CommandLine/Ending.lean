import VisualRules.Program.Basic

namespace VisualRules

inductive RunError
  | unreadable (file : String)
  | invalidProgram (file : String)
  | failed (file : String) (failure : Failure)
  | noRule (rule : Nat)
  deriving DecidableEq, Repr

/-- A text whose further lines are indented as far as the number of a cause reaches. -/
def indentFurtherLines (text : String) : String :=
  String.ofList (text.toList.flatMap fun c =>
    if c = '\n' then '\n' :: List.replicate 7 ' ' else [c])

/-- A cause with its number, the lines of its message below each other. -/
def numberedCause (number : Nat) (message : String) : String :=
  s!"    {number}: " ++ indentFurtherLines message

namespace RunError

/-- The causes of a failed compile, from the outermost on. -/
def causes : Failure → List String
  | .refused error => [error.message, error.violation.message]
  | .fault fault => [fault.message]

def message : RunError → String
  | unreadable file => s!"failed to read {file}"
  | invalidProgram file => s!"{file} is not a valid program"
  | failed file failure =>
    s!"failed to compile {file}\n\nCaused by:\n" ++
      String.intercalate "\n" ((causes failure).zipIdx.map fun (cause, number) =>
        numberedCause number cause)
  | noRule rule => s!"program has no rule {rule}"

end RunError

structure Summary where
  file : String
  rules : Nat
  segments : Nat
  features : FeatureSet
  deriving DecidableEq, Repr

def FeatureSet.listing (features : FeatureSet) : String :=
  s!"Features \x7b sound: {features.sound}, timer: {features.timer}, " ++
    s!"microphone: {features.microphone}, tilt_angle: {features.tiltAngle} \x7d"

def Summary.message (summary : Summary) : String :=
  s!"{summary.file}: {summary.rules} rules, {summary.segments} segments, features: " ++
    summary.features.listing

/-- Where the code of a rule stands. -/
structure Highlight where
  file : String
  rule : Nat
  segment : Nat
  bytes : Nat × Nat
  deriving DecidableEq, Repr

def Highlight.message (highlight : Highlight) : String :=
  s!"code generated for rule {highlight.rule}: {highlight.file}, segment {highlight.segment}, " ++
    s!"bytes {highlight.bytes.1} to {highlight.bytes.2}"

/-- How a command ends. -/
inductive Ending
  | help
  | wrongArguments
  | failed (error : RunError)
  | checked (summary : Summary)
  | compiled
  | highlighted (highlight : Highlight)
  deriving DecidableEq, Repr

def usage : String :=
  "Usage:\n" ++
  "  compile FILE [--advanced] [--map] [--segments] [--highlight RULE]\n" ++
  "  check FILE\n" ++
  "  help\n" ++
  "FILE is a saved program, or - for standard input.\n"

namespace Ending

def status : Ending → Nat
  | wrongArguments => 2
  | failed _ => 1
  | help | checked _ | compiled | highlighted _ => 0

def diagnostics : Ending → String
  | help | compiled => ""
  | wrongArguments => usage
  | failed error => "Error: " ++ error.message ++ "\n"
  | checked summary => summary.message ++ "\n"
  | highlighted highlight => highlight.message ++ "\n"

end Ending

end VisualRules
