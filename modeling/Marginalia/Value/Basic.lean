import Marginalia.Number.Text
import Marginalia.Text.Units

/-!
# Values

Loose data: what a program may throw and what accompanies a debug message.  The members of a
record keep the order in which they were given.
-/

namespace Marginalia

/-- Data without a fixed shape. -/
inductive Value where
  | null
  | bool (value : Bool)
  | number (value : Number)
  | text (value : String)
  /-- A text in which halves of pairs stand alone, as code units. -/
  | torn (units : List Nat)
  | list (items : List Value)
  | record (members : List (String × Value))
deriving Inhabited

namespace Value

/-- An integer as a value. -/
def ofInt (n : Int) : Value := number (.ofInt n)

/-- A natural number as a value. -/
def ofNat (n : Nat) : Value := number (.ofNat n)

/-- The value of the first member with a name. -/
def member? (name : String) : Value → Option Value
  | record members => members.lookup name
  | _ => none

/-- The kind of a value as a word. -/
def kind : Value → String
  | bool _ => "boolean"
  | number _ => "number"
  | text _ | torn _ => "string"
  | null | list _ | record _ => "object"

mutual

/-- A value as plain text: a list is its items between commas, a record has no text of its own. -/
def plain : Value → String
  | null => "null"
  | bool value => if value then "true" else "false"
  | number value => value.text
  | text value => value
  | torn units => String.ofList (Text.mended units)
  | list items => ",".intercalate (plainItems items)
  | record _ => "[object Object]"

/-- The plain texts of items; a null item is empty. -/
def plainItems : List Value → List String
  | [] => []
  | item :: rest =>
    (match item with
      | null => ""
      | other => other.plain) :: plainItems rest

end

end Value

end Marginalia
