import Marginalia.Layout.Columns
import Marginalia.Span.Label
import Marginalia.Text.Split
import Marginalia.Theme

/-!
# Callouts

A label of a window as it is drawn: with its place among the labels, its style, and its text cut
into rows.  Beside a line a callout is placed by its relation to the line, and under a line that
contains its span it is placed by columns.
-/

namespace Marginalia

/-- A label ready to be drawn. -/
structure Callout (κ : Type) where
  /-- Place of the label in its window. -/
  index : Nat
  span : Span κ
  /-- The lines of the text of the label, if it has one. -/
  text : Option (List (List Char))
  style : Style
deriving DecidableEq

namespace Callout

/-- The callouts of the labels of a window, the first with the given place. -/
def ofLabels {κ : Type} (palette : Palette) (index : Nat) : List (Label κ) → List (Callout κ)
  | [] => []
  | label :: rest =>
    ⟨index, label.span, label.text.map fun text => Text.split '\n' text.toList,
      palette.highlight index⟩ :: ofLabels palette (index + 1) rest

end Callout

/-- A callout beside a line. -/
structure Placed (κ : Type) where
  callout : Callout κ
  relation : Relation
deriving DecidableEq

/-- A callout under the line that contains its span. -/
structure Underlined (κ : Type) where
  callout : Callout κ
  columns : Columns
deriving DecidableEq

namespace Underlined

/-- The callouts whose spans a line contains. -/
def ofPlaced {κ : Type} [Coordinate κ] (tab : Nat) (line : Line κ) (placed : List (Placed κ)) :
    List (Underlined κ) :=
  (placed.filter (·.relation = .contained)).map fun p =>
    ⟨p.callout, .ofSpan tab line p.callout.span⟩

end Underlined

end Marginalia
