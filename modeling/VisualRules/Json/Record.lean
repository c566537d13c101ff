import VisualRules.Json.Basic

/-!
# Records

A record has named fields. It is written as an object, in any order and with further fields that
nobody asks for, or as the list of its fields in their own order, where the last ones may be left
out.
-/

namespace VisualRules.Json

def text? : Json → Option String
  | .str text => text
  | _ => none

def bool? : Json → Option Bool
  | .bool value => some value
  | _ => none

/-- A number that is written as an integer and fits into 32 bits. -/
def int32? : Json → Option Int32
  | .int value =>
    if Int32.minValue.toInt ≤ value ∧ value ≤ Int32.maxValue.toInt then some (Int32.ofInt value)
    else none
  | _ => none

@[simp] theorem int32?_int (value : Int32) : int32? (.int value.toInt) = some value := by
  have low : Int32.minValue.toInt ≤ value.toInt := Int32.minValue_le_toInt value
  have high : value.toInt ≤ Int32.maxValue.toInt := Int32.toInt_le value
  simp only [int32?]
  rw [if_pos ⟨low, high⟩, Int32.ofInt_toInt]

/-- The items of a list, each read alike. -/
def list? {α : Type} (read : Json → Option α) : Json → Option (List α)
  | .arr items => items.mapM read
  | _ => none

def nullable? {α : Type} (read : Json → Option α) : Json → Option (Option α)
  | .null => some none
  | value => (read value).map some

/-- The named fields of an object, the others left out. Every name has to have a text, and no field
of the record may be given twice. -/
def objectFields? (names : List String) (fields : List (Option String × Json)) :
    Option (List (String × Json)) := do
  let named ← fields.mapM fun (name, value) => name.map (·, value)
  let known := named.filter fun (name, _) => name ∈ names
  if (known.map Prod.fst).Nodup then some known else none

/-- The fields of a record with these names that are given. -/
def record? (names : List String) : Json → Option (List (String × Json))
  | .obj fields => objectFields? names fields
  | .arr items => if items.length ≤ names.length then some (names.zip items) else none
  | _ => none

/-- Reads a field that has to be given. -/
def field? {α : Type} (fields : List (String × Json)) (name : String) (read : Json → Option α) :
    Option α :=
  match fields.lookup name with
  | some value => read value
  | none => none

/-- Reads a field that has a default. -/
def fieldD? {α : Type} (fields : List (String × Json)) (name : String) (default : α)
    (read : Json → Option α) : Option α :=
  match fields.lookup name with
  | some value => read value
  | none => some default

end VisualRules.Json
