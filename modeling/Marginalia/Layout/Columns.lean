import Marginalia.Layout.Relation
import Marginalia.Text.Column

/-!
# Columns of spans

Where a span is underlined on a line that contains it, and where its label hangs.
-/

namespace Marginalia

/-- The columns of a span on a line, from zero. -/
structure Columns where
  start : Nat
  /-- The column behind the last one. -/
  stop : Nat
deriving DecidableEq

namespace Columns

/-- The column in the middle, where the label hangs. -/
def middle (c : Columns) : Nat := c.start + (c.stop - c.start) / 2

/-- The columns of a span on a line; there is always at least one. -/
def ofSpan {κ : Type} [Coordinate κ] (tab : Nat) (line : Line κ) (s : Span κ) : Columns :=
  let start := Text.columnOf tab line.content (s.offset - line.offset)
  let stop := if s.isPoint then start + 1 else Text.columnOf tab line.content (s.stop - line.offset)
  ⟨start, max stop (start + 1)⟩

end Columns

end Marginalia
