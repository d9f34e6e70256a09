import Marginalia.Style

/-!
# Rows

A row of a snippet is drawn from left to right in segments of one style each, and a segment from
strokes: a glyph repeated so many times, or text.  Counts are differences of columns, and are kept
as they come out; a stroke with a count below zero could not be drawn.
-/

namespace Marginalia

/-- A part of a segment. -/
inductive Stroke where
  | repeated (glyph : Char) (count : Int)
  | text (text : List Char)
deriving DecidableEq

namespace Stroke

/-- A glyph drawn once. -/
def once (glyph : Char) : Stroke := repeated glyph 1

/-- The characters of a stroke. -/
def chars : Stroke → List Char
  | repeated glyph count => List.replicate count.toNat glyph
  | text cs => cs

/-- Whether the stroke can be drawn. -/
def Drawable : Stroke → Prop
  | repeated _ count => 0 ≤ count
  | text _ => True

end Stroke

/-- Strokes in one style. -/
structure Segment where
  style : Style
  strokes : List Stroke
deriving DecidableEq

namespace Segment

/-- Columns left empty. -/
def blank (count : Int) : Segment := ⟨.plain, [.repeated ' ' count]⟩

/-- Strokes without a style. -/
def plain (strokes : List Stroke) : Segment := ⟨.plain, strokes⟩

/-- The characters of the strokes. -/
def chars (s : Segment) : List Char := s.strokes.flatMap Stroke.chars

/-- The characters of the strokes in their style. -/
def painted (s : Segment) : List Char := s.style.paint s.chars

end Segment

/-- Segments from left to right. -/
abbrev Row := List Segment

namespace Row

/-- The characters of a row without styles. -/
def chars (r : Row) : List Char := r.flatMap Segment.chars

/-- The characters of a row in its styles. -/
def painted (r : Row) : List Char := r.flatMap Segment.painted

/-- Whether every stroke of the row can be drawn. -/
def Drawable (r : Row) : Prop := ∀ s ∈ r, ∀ stroke ∈ s.strokes, stroke.Drawable

end Row

end Marginalia
