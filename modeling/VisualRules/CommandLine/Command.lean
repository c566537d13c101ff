namespace VisualRules

structure View where
  /-- Compile in advanced mode, whatever the document demands. -/
  advanced : Bool := false
  /-- Point at the code of this rule. -/
  highlight : Option Nat := none
  /-- List the segment and line of each rule. -/
  map : Bool := false
  /-- Show each segment on its own. -/
  segments : Bool := false
  deriving DecidableEq, Repr

inductive Command
  | help
  | compile (file : String) (view : View)
  | check (file : String)
  deriving DecidableEq, Repr

inductive Verb
  | compile
  | check
  deriving DecidableEq, Repr

/-- What the words read so far have settled. -/
structure Request where
  file : Option String := none
  view : View := {}
  deriving DecidableEq, Repr

/-- The number of a rule: digits after an optional plus sign, in the range of a machine word. -/
def ruleNumber? (word : String) : Option Nat :=
  let digits := match word.toList with
    | '+' :: rest => rest
    | cs => cs
  if digits ≠ [] ∧ digits.all Char.isDigit ∧ Nat.ofDigitChars 10 digits 0 < UInt64.size then
    some (Nat.ofDigitChars 10 digits 0)
  else none

/-- The word is not a file name. A single dash is one. -/
def isFlag (word : String) : Bool :=
  match word.toList with
  | '-' :: _ :: _ => true
  | _ => false

def asksForHelp (word : String) : Bool :=
  match word.toList with
  | '-' :: 'h' :: _ => true
  | _ => word = "--help"

/-- The value in a word such as `--highlight=3`. -/
def attachedHighlight? (word : String) : Option String :=
  let marker := "--highlight=".toList
  if marker.isPrefixOf word.toList then some (String.ofList (word.toList.drop marker.length))
  else none

namespace Request

def addFile (request : Request) (word : String) : Option Request :=
  if request.file.isNone ∧ word ≠ "" then some { request with file := some word } else none

def addHighlight (request : Request) (word : String) : Option Request := do
  let rule ← ruleNumber? word
  if request.view.highlight.isNone then
    return { request with view := { request.view with highlight := some rule } }
  else none

/-- Turns a switch on. No switch can be given twice. -/
def addSwitch (request : Request) (word : String) : Option Request :=
  let view := request.view
  if word = "--advanced" ∧ !view.advanced then
    some { request with view := { view with advanced := true } }
  else if word = "--map" ∧ !view.map then some { request with view := { view with map := true } }
  else if word = "--segments" ∧ !view.segments then
    some { request with view := { view with segments := true } }
  else none

/-- The command that has been asked for. A file is needed. -/
def command? (request : Request) : Verb → Option Command
  | .compile => request.file.map (.compile · request.view)
  | .check => request.file.map .check

end Request

namespace Command

/-- Reads the words after the verb. After `--` every word is a file name. -/
def read (verb : Verb) (request : Request) : List String → Option Command
  | [] => request.command? verb
  | word :: rest =>
    if word = "--" then (rest.foldlM Request.addFile request).bind (·.command? verb)
    else if asksForHelp word then some help
    else if !isFlag word then (request.addFile word).bind (read verb · rest)
    else if verb = .check then none
    else if word = "--highlight" then
      match rest with
      | [] => none
      | value :: rest =>
        if isFlag value then none else (request.addHighlight value).bind (read verb · rest)
    else match attachedHighlight? word with
      | some value => (request.addHighlight value).bind (read verb · rest)
      | none => (request.addSwitch word).bind (read verb · rest)

/-- The command of a command line, if it is well formed. -/
def parse? : List String → Option Command
  | "compile" :: rest => read .compile {} rest
  | "check" :: rest => read .check {} rest
  | ["help"] => some help
  | ["help", topic] => if topic ∈ ["compile", "check", "help"] then some help else none
  | word :: _ => if asksForHelp word then some help else none
  | [] => none

def file? : Command → Option String
  | help => none
  | compile file _ => some file
  | check file => some file

end Command

end VisualRules
