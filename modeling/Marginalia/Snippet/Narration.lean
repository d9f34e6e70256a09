import Marginalia.Snippet.Drawing

/-!
# Narrated snippets

The same windows told in words: every line with its number, and below it what begins, ends or lies
on it.
-/

namespace Marginalia.Narration

variable {κ : Type} [Coordinate κ]

/-- A sentence from its parts. -/
def sentence (parts : List String) : List Char := (String.join parts).toList

/-- What a label is called. -/
def noun (l : Label κ) : String := if l.text.isSome then "label" else "highlight"

/-- The text of a label behind a colon, on one line. -/
def remark (l : Label κ) : String :=
  match l.text with
  | some text => ": " ++ String.ofList (text.toList.map fun c => if c = '\n' then ' ' else c)
  | none => ""

/-- What is said of a label below a line. -/
def ofLabel (tab : Nat) (line : Line κ) (l : Label κ) (relation : Relation) : Option (List Char) :=
  let say (parts : List String) : List Char :=
    sentence (["    ", noun l] ++ parts ++ [remark l])
  let number := toString line.number
  let columns := Columns.ofSpan tab line l.span
  match relation with
  | .none | .passes => none
  | .ends =>
    let upTo := Columns.ofSpan tab line ⟨line.offset, l.span.stop - line.offset⟩
    some (say [" ending at line ", number, ", column ", toString upTo.stop])
  | .starts => some (say [" starting at line ", number, ", column ", toString (columns.start + 1)])
  | .contained =>
    if l.span.isPoint then
      some (say [" at line ", number, ", column ", toString (columns.start + 1)])
    else
      some (say [" at line ", number, ", columns ", toString (columns.start + 1), " to ",
        toString columns.stop])

/-- What is said of a line. -/
def ofLine (m : Manner) (labels : List (Label κ)) (laid : LaidLine κ) : List (List Char) :=
  (sentence ["snippet line ", toString laid.line.number, ": "] ++ laid.line.content) ::
    (List.zipWith (ofLabel m.tab laid.line) labels laid.relations).filterMap id

/-- What is said of a window. -/
def ofFrame (m : Manner) (source : Source) (f : Frame κ) : List (List Char) :=
  let name :=
    match source.name with
    | some name => " for " ++ name
    | none => ""
  [[],
    sentence ["Begin snippet", name, " starting at line ", toString (f.window.line + 1),
      ", column ", Coordinate.text (f.window.column + ((1 : Nat) : κ))],
    []] ++ f.layout.lines.flatMap (ofLine m f.window.labels) ++ [[]]

/-- What is said of the labels on a source. -/
def lines (m : Manner) (source : Source) (labels : List (Label κ)) :
    Except (SpanError κ) (List (List Char)) := do
  let merge ← Window.ofSource source labels m.before m.after
  let frames ← merge.windows.mapM (Frame.ofWindow m source)
  let notices := merge.failures.map fun f => sentence ["    ", f.label.unreadableNotice]
  return notices ++ frames.flatMap (ofFrame m source)

end Marginalia.Narration
