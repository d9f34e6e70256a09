import Marginalia.Source.Line

/-!
# Relations of spans to lines

How a span lies to a line: within it, beginning or ending on it, running past it, or not there at
all.  A span of several lines is drawn with a connector in the gutter, and the gutter of a window
is as wide as the most connectors on one of its lines.
-/

namespace Marginalia

/-- How a span lies to a line. -/
inductive Relation where
  | contained
  | starts
  | ends
  | passes
  | none
deriving DecidableEq

namespace Relation

/-- All relations. -/
def all : List Relation := [contained, starts, ends, passes, none]

/-- The name of a relation. -/
def name : Relation → String
  | contained => "contained"
  | starts => "starts"
  | ends => "ends"
  | passes => "flyby"
  | none => "none"

/-- The relation with a name. -/
def ofName? (s : String) : Option Relation := all.find? (·.name = s)

/-- Whether the span takes a connector beside the line. -/
def isMultiLine : Relation → Bool
  | starts | ends | passes => true
  | contained | none => false

/-- How a span lies to a line.  A point at the end of the last line is on it if nothing follows. -/
def classify {κ : Type} [Coordinate κ] (line : Line κ) (s : Span κ) : Relation :=
  if s.isPoint then
    if s.offset < line.offset then none
    else if s.offset < line.stop then contained
    else if Coordinate.Same s.offset line.stop ∧ line.atEnd then contained
    else none
  else if line.offset ≤ s.offset ∧ s.stop ≤ line.stop then contained
  else if line.offset ≤ s.offset ∧ s.offset < line.stop then starts
  else if s.offset < line.offset then
    if line.stop < s.stop then passes
    else if line.offset < s.stop then ends
    else none
  else none

/-- Connectors beside a line. -/
def depth (relations : List Relation) : Nat := relations.countP isMultiLine

end Relation

/-- A line with the relations of the spans of its window. -/
structure LaidLine (κ : Type) where
  line : Line κ
  relations : List Relation
deriving DecidableEq

/-- The lines of a window against its spans. -/
structure Layout (κ : Type) where
  lines : List (LaidLine κ)
  /-- Connectors that the window has room for. -/
  gutter : Nat
deriving DecidableEq

namespace Layout

/-- The lines of a window against its spans. -/
def ofLines {κ : Type} [Coordinate κ] (lines : List (Line κ)) (spans : List (Span κ)) :
    Layout κ :=
  let laid := lines.map fun line => ⟨line, spans.map (Relation.classify line)⟩
  ⟨laid, (laid.map fun l => Relation.depth l.relations).foldr max 0⟩

end Layout

end Marginalia
