import Marginalia.Snippet.Callout
import Marginalia.Snippet.Row

/-!
# Gutters

Beside the lines of a window run the connectors of the spans of several lines, one column each in
the order of the labels.  A window without such spans has no gutter.  Beside a source line the
first connector that begins or ends there turns into an arrow to the line; beside the rows below
it, a connector that has ended leaves its column empty, and the row of its label bends out of it.
-/

namespace Marginalia.Gutter

variable {κ : Type}

/-- The connector of a callout on its way. -/
def bar (g : Glyphs) (c : Callout κ) : Segment := ⟨c.style, [.once g.vertical]⟩

/-- The arrow to a line where a span begins or ends. -/
def arrow (g : Glyphs) (c : Callout κ) (corner : Char) (run : Int) : Segment :=
  ⟨c.style, [.once corner, .repeated g.horizontal run, .once g.rightArrow]⟩

/-- The corner where a span ends: its connector goes on below if a label hangs there. -/
def endCorner (g : Glyphs) (c : Callout κ) : Char :=
  if c.text.isSome then g.branch else g.bottomCorner

/-- Connectors beside a source line, behind `depth` of them. -/
def besideLine (g : Glyphs) (room depth : Nat) : List (Placed κ) → Row
  | [] => [.blank (3 + (room - depth : Nat))]
  | p :: rest =>
    match p.relation with
    | .starts => [arrow g p.callout g.topCorner (room - depth), .blank 1]
    | .ends => [arrow g p.callout (endCorner g p.callout) (room - depth), .blank 1]
    | .passes => bar g p.callout :: besideLine g room (depth + 1) rest
    | .contained | .none => besideLine g room depth rest

/-- The gutter of a source line. -/
def line (g : Glyphs) (room : Nat) (placed : List (Placed κ)) : Row :=
  if room = 0 then [] else besideLine g room 0 placed

/-- Whether the connector of a callout still runs below a line.  One that ends there does so only
for the sake of its label, and only from the place `waiting` on. -/
def runsOn (waiting : Nat) (p : Placed κ) : Bool :=
  p.relation ≠ .ends || (p.callout.text.isSome && waiting ≤ p.callout.index)

/-- Connectors beside a row below a line, behind `depth` of them, in a gutter of `width` columns.
The connector with the place `target` bends out to the right. -/
def besideRow (g : Glyphs) (room width : Nat) (target : Option Nat) (waiting depth : Nat) :
    List (Placed κ) → Row
  | [] => [.blank (width - depth : Nat)]
  | p :: rest =>
    if p.relation.isMultiLine then
      if target = some p.callout.index then
        [⟨p.callout.style, [.once g.bottomCorner, .repeated g.horizontal (room - depth + 2)]⟩,
          .blank (width - (room + 3) : Nat)]
      else
        (if runsOn waiting p then bar g p.callout else .blank 1) ::
          besideRow g room width target waiting (depth + 1) rest
    else besideRow g room width target waiting depth rest

/-- The gutter of a row below a line. -/
def row (g : Glyphs) (room width : Nat) (target : Option Nat) (waiting : Nat)
    (placed : List (Placed κ)) : Row :=
  if room = 0 then [.blank width] else besideRow g room width target waiting 0 placed

/-- Columns in front of the text of a line: none without a gutter. -/
def origin (room : Nat) : Nat := if room = 0 then 0 else room + 3

end Marginalia.Gutter
