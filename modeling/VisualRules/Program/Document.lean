import VisualRules.Json.Basic
import VisualRules.Json.Reader
import VisualRules.Json.Record
import VisualRules.Program.Basic

namespace VisualRules

/-- A role is written as its tag, or as an object whose only name is the tag. -/
def Role.ofJson? : Json → Option Role
  | .str (some tag) => Role.ofTag? tag
  | .obj [(some tag, .null)] => Role.ofTag? tag
  | _ => none

def Role.toJson (role : Role) : Json := .ofText role.tag

namespace Card

def fieldNames : List String := ["role", "kind", "values"]

def ofJson? (document : Json) : Option Card := do
  let fields ← document.record? fieldNames
  return {
    role := ← Json.field? fields "role" Role.ofJson?
    kind := ← Json.field? fields "kind" Json.text?
    values := ← Json.fieldD? fields "values" [] (Json.list? Json.int32?) }

def toJson (card : Card) : Json :=
  .ofFields [("role", card.role.toJson), ("kind", .ofText card.kind),
    ("values", .arr (card.values.map fun value => .int value.toInt))]

end Card

namespace Rule

def fieldNames : List String := ["event", "state_filter", "actions", "is_advanced"]

def ofJson? (document : Json) : Option Rule := do
  let fields ← document.record? fieldNames
  return {
    event := ← Json.field? fields "event" Card.ofJson?
    stateFilter := ← Json.fieldD? fields "state_filter" none (Json.nullable? Card.ofJson?)
    actions := ← Json.fieldD? fields "actions" [] (Json.list? Card.ofJson?)
    isAdvanced := ← Json.fieldD? fields "is_advanced" false Json.bool? }

def toJson (rule : Rule) : Json :=
  .ofFields [("event", rule.event.toJson),
    ("state_filter", rule.stateFilter.elim .null Card.toJson),
    ("actions", .arr (rule.actions.map Card.toJson)),
    ("is_advanced", .bool rule.isAdvanced)]

end Rule

namespace Program

def fieldNames : List String := ["rules", "advanced_mode"]

def ofJson? (document : Json) : Option Program := do
  let fields ← document.record? fieldNames
  return {
    rules := ← Json.fieldD? fields "rules" [] (Json.list? Rule.ofJson?)
    advancedMode := ← Json.fieldD? fields "advanced_mode" false Json.bool? }

def toJson (program : Program) : Json :=
  .ofFields [("rules", .arr (program.rules.map Rule.toJson)),
    ("advanced_mode", .bool program.advancedMode)]

def load? (text : String) : Option Program := do ofJson? (← Json.parse? text)

def save (program : Program) : String := program.toJson.render

end Program

end VisualRules
