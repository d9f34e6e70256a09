import Marginalia.Text.Fill
import Marginalia.Text.Width

/-!
# Wrapped text

Text is wrapped to a width that includes its indents.  Both indents take the room of the wider
one, and at least one column is left for text.  Line breaks of the text are kept.
-/

namespace Marginalia.Text

/-- Columns of a text without the escapes of a report. -/
def visibleWidth (cs : List Char) : Nat := width defaultTab (remove reportEscape cs)

/-- How text is wrapped. -/
structure Wrapping where
  width : Nat
  /-- Stands in front of the first line. -/
  first : List Char
  /-- Stands in front of the other lines. -/
  others : List Char

namespace Wrapping

/-- Columns of the wider indent. -/
def indent (w : Wrapping) : Nat := max (visibleWidth w.first) (visibleWidth w.others)

/-- Columns left for text. -/
def room (w : Wrapping) : Nat := max 1 (w.width - w.indent)

/-- The pieces of a text, each to stand on a line of its own. -/
def pieces (w : Wrapping) (text : List Char) : List (List Char) :=
  (split '\n' text).flatMap (fill w.room)

/-- The lines of a text. -/
def lines (w : Wrapping) (text : List Char) : List (List Char) :=
  match w.pieces text with
  | [] => []
  | piece :: rest => (w.first ++ piece) :: rest.map (w.others ++ ·)

end Wrapping

end Marginalia.Text
