import Marginalia.Value.Json

/-!
# Debug messages

A message names a channel and a point of the program and may carry data.  It is written as JSON
for machines, or for readers with the data cut short: long texts, long lists and records inside
of records are only hinted at.
-/

namespace Marginalia

/-- A way of writing messages. -/
inductive Format where
  | pretty
  | json
deriving DecidableEq

/-- What a message is about. -/
structure Message where
  channel : String
  point : String
  /-- Data with its names, if there is any. -/
  data : Option (List (String × Value))

namespace Message

/-- Texts of more units are cut. -/
def longestText : Nat := 60

/-- Units of a text that are kept when it is cut. -/
def keptText : Nat := 57

/-- Items of the longest list that is written out. -/
def longestList : Nat := 4

/-- Units of the longest data that stand in one line. -/
def longestLine : Nat := 100

mutual

/-- A value in short, inside of `depth` lists. -/
def brief (depth : Nat) : Value → List Char
  | .null => "null".toList
  | .bool value => (if value then "true" else "false").toList
  | .number value => value.text.toList
  | .text value => Text.quoteCut longestText keptText value.toList
  | .torn units => Text.quoteUnitsCut longestText keptText units
  | .list items =>
    if items.isEmpty then ['[', ']']
    else if items.length ≤ longestList ∧ depth < 2 then
      '[' :: ", ".toList.intercalate (briefAll (depth + 1) items) ++ [']']
    else '[' :: (toString items.length).toList ++ " items]".toList
  | .record members =>
    match members.lookup "name" with
    | some (.text name) => '<' :: name.toList ++ ['>']
    | some (.torn units) => '<' :: Text.mended units ++ ['>']
    | _ =>
      "\x7b...".toList ++ (if depth = 0 then (toString members.length).toList else []) ++ ['\x7d']

/-- Values in short, one after the other. -/
def briefAll (depth : Nat) : List Value → List (List Char)
  | [] => []
  | item :: rest => brief depth item :: briefAll depth rest

end

/-- Data in short, in one line if it fits. -/
def briefData (data : List (String × Value)) : List Char :=
  let parts := data.map fun (name, value) => name.toList ++ '=' :: brief 0 value
  let inline := "\x7b ".toList ++ ", ".toList.intercalate parts ++ " \x7d".toList
  if Text.units inline ≤ longestLine then inline
  else "\x7b\n  ".toList ++ ",\n  ".toList.intercalate parts ++ "\n\x7d".toList

/-- The message for a reader. -/
def pretty (m : Message) : List Char :=
  let label := '[' :: m.channel.toList ++ '.' :: m.point.toList ++ [']']
  match m.data with
  | none | some [] => label
  | some data => label ++ ' ' :: briefData data

/-- The message for a machine. -/
def toValue (m : Message) : Value :=
  .record ([("channel", .text m.channel), ("point", .text m.point)] ++
    (m.data.map fun data => ("data", Value.record data)).toList)

/-- The text of a message. -/
def write (m : Message) : Format → String
  | .pretty => String.ofList m.pretty
  | .json => m.toValue.json

end Message

end Marginalia
