import VisualRules.Json.Text

/-!
# JSON values

The tree of a JSON text. Two things of the text stay visible in it because they decide whether a
document can be read: a number that is not written as an integer, and a string that stands for no
text. A value is written without blanks, the fields of an object in their order.
-/

namespace VisualRules

inductive Json
  | null
  | bool (value : Bool)
  /-- A number written without fraction and exponent, other than `-0`. -/
  | int (value : Int)
  /-- Any other number, as it is written. -/
  | decimal (literal : String)
  /-- A string, with its text. One in which a surrogate escape stands alone has none. -/
  | str (text : Option String)
  | arr (items : List Json)
  /-- Names and values in the order of the text. A name can be given twice. -/
  | obj (fields : List (Option String × Json))
  deriving Repr

namespace Json

/-- The string that stands for a text. -/
def ofText (text : String) : Json := .str (some text)

def ofFields (fields : List (String × Json)) : Json :=
  .obj (fields.map fun (name, value) => (some name, value))

mutual

/-- The characters of a written value. -/
def written : Json → List Char
  | .null => ['n', 'u', 'l', 'l']
  | .bool true => ['t', 'r', 'u', 'e']
  | .bool false => ['f', 'a', 'l', 's', 'e']
  | .int value => (toString value).toList
  | .decimal literal => literal.toList
  | .str text => quote text
  | .arr items => '[' :: writtenItems items ++ [']']
  | .obj fields => '{' :: writtenFields fields ++ ['}']

def writtenItems : List Json → List Char
  | [] => []
  | [item] => written item
  | item :: rest => written item ++ ',' :: writtenItems rest

def writtenFields : List (Option String × Json) → List Char
  | [] => []
  | [(name, value)] => quote name ++ ':' :: written value
  | (name, value) :: rest => quote name ++ ':' :: written value ++ ',' :: writtenFields rest

end

def render (value : Json) : String := String.ofList (written value)

end Json

end VisualRules
