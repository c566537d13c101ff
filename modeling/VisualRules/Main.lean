import VisualRules.CommandLine.Outcome

open VisualRules

/-- The content of a file, or of standard input for a dash. -/
def readContent (file : String) : IO (Option String) := do
  try
    if file = "-" then
      return some (← (← IO.getStdin).readToEnd)
    else return some (← IO.FS.readFile file)
  catch _ => return none

def main (arguments : List String) : IO UInt32 := do
  let content ← match (Command.parse? arguments).bind Command.file? with
    | some file => readContent file
    | none => pure none
  let outcome := CommandLine.run arguments content
  IO.print outcome.output
  IO.eprint outcome.ending.diagnostics
  return UInt32.ofNat outcome.ending.status
