import Marginalia.Value.Basic
import Marginalia.Text.Quoted

/-!
# Values as JSON

The compact JSON text of a value: no blanks, members in their order.
-/

namespace Marginalia.Value

/-- A text as a JSON string. -/
def quoted (s : String) : String := String.ofList (Text.quote s.toList)

/-- Texts between two brackets, with commas. -/
def enclose (opening closing : String) (parts : List String) : String :=
  opening ++ ",".intercalate parts ++ closing

mutual

/-- The JSON text of a value; a number that JSON cannot write is `null`. -/
def json : Value → String
  | null => "null"
  | bool value => if value then "true" else "false"
  | number value =>
    match value with
    | .finite _ => value.text
    | _ => "null"
  | text value => quoted value
  | torn units => String.ofList (Text.quoteUnits units)
  | list items => enclose "[" "]" (jsonItems items)
  | record members => enclose "\x7b" "\x7d" (jsonMembers members)

/-- The JSON texts of items. -/
def jsonItems : List Value → List String
  | [] => []
  | item :: rest => item.json :: jsonItems rest

/-- The JSON texts of members. -/
def jsonMembers : List (String × Value) → List String
  | [] => []
  | (name, value) :: rest => (quoted name ++ ":" ++ value.json) :: jsonMembers rest

end

end Marginalia.Value
