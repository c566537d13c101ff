/-!
# Lines

A script is made of lines. Each is indented by a number of tabs and ends with a line break, so the
lines of a script can be counted in its text.
-/

namespace VisualRules

def decimal (value : Int32) : String := toString value.toInt

/-- One line of a script: how far it is indented, and what stands on it. -/
structure Line where
  depth : Nat
  code : String
  deriving DecidableEq, Repr

namespace Line

/-- The line without its line break. -/
def content (line : Line) : String := String.ofList (List.replicate line.depth '\t') ++ line.code

def text (line : Line) : String := line.content ++ "\n"

def textOf (lines : List Line) : String := String.join (lines.map text)

/-- The line that separates two parts of a script. -/
def blank : Line := ⟨0, ""⟩

@[simp] theorem toList_textOf_nil : (textOf []).toList = [] := rfl

@[simp] theorem toList_textOf_append (lines others : List Line) :
    (textOf (lines ++ others)).toList = (textOf lines).toList ++ (textOf others).toList := by
  simp [textOf, String.toList_join]

theorem textOf_append (lines others : List Line) :
    textOf (lines ++ others) = textOf lines ++ textOf others := by
  apply String.toList_injective
  rw [toList_textOf_append, String.toList_append]

end Line

end VisualRules
