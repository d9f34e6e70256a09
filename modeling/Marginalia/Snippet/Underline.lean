import Marginalia.Snippet.Callout
import Marginalia.Snippet.Row

/-!
# Underlines

Below a line the spans that it contains are underlined, each from where the one before it left
off.  The labels hang from the middles of the underlines, the last one first, and the labels that
are still to come hold their places by bars.
-/

namespace Marginalia.Underline

variable {κ : Type} [Coordinate κ]

/-- What the middle of an underline is drawn with. -/
def middleGlyph (g : Glyphs) (c : Callout κ) : Char :=
  if c.span.isPoint then g.upArrow else if c.text.isSome then g.stem else g.underline

/-- The underline of a span from a column on. -/
def run (g : Glyphs) (u : Underlined κ) (start : Nat) : Segment :=
  let columns := u.columns
  ⟨u.callout.style,
    if start ≤ columns.middle ∧ columns.middle < columns.stop then
      [.repeated g.underline (columns.middle - start), .once (middleGlyph g u.callout),
        .repeated g.underline (columns.stop - columns.middle - 1)]
    else [.repeated g.underline (columns.stop - start)]⟩

/-- The underlines of spans behind the column `done`. -/
def row (g : Glyphs) (done : Nat) : List (Underlined κ) → Row
  | [] => []
  | u :: rest =>
    let start := max u.columns.start done
    if start < u.columns.stop then
      .blank (start - done) :: run g u start :: row g u.columns.stop rest
    else row g done rest

/-- Bars for the labels that wait, from a column on up to the middle of the current one. -/
def bars (g : Glyphs) (target cursor : Nat) : List (Underlined κ) → Row
  | [] => [.blank (target - cursor : Nat)]
  | u :: rest =>
    let middle := u.columns.middle
    if middle < cursor ∨ target ≤ middle then bars g target cursor rest
    else
      .blank (middle - cursor) :: ⟨u.callout.style, [.once g.vertical]⟩ ::
        bars g target (middle + 1) rest

/-- The rows of the label of a span under the bars of those that wait. -/
def labelRows (g : Glyphs) (waiting : List (Underlined κ)) (u : Underlined κ)
    (text : List (List Char)) : List Row :=
  let lead := bars g u.columns.middle 0 waiting
  let tail (strokes : List Stroke) (line : List Char) : Row :=
    lead ++ [⟨u.callout.style, strokes ++ [.text line]⟩]
  tail [.once g.bottomCorner, .repeated g.horizontal 2, .once ' '] (text.headD []) ::
    text.tail.map (tail [.once g.vertical, .repeated ' ' 3])

/-- The rows of the labels, with those that wait given in front in reverse. -/
def allLabelRows (g : Glyphs) (waiting : List (Underlined κ)) : List (Underlined κ) → List Row
  | [] => []
  | u :: rest =>
    match u.callout.text with
    | none => allLabelRows g waiting rest
    | some text => allLabelRows g (u :: waiting) rest ++ labelRows g waiting.reverse u text

/-- The underlines of a line with their labels below. -/
def rows (g : Glyphs) (underlined : List (Underlined κ)) : List Row :=
  if underlined.isEmpty then [] else row g 0 underlined :: allLabelRows g [] underlined

end Marginalia.Underline
