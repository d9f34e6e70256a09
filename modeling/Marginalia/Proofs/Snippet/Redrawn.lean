import Marginalia.Proofs.Span.Moved
import Marginalia.Snippet.Gutter
import Marginalia.Snippet.Underline

/-!
# Callouts drawn elsewhere

A callout is drawn by its relation to a line and by its columns.  Of its span only whether it is a
point is looked at, so a callout whose span is moved is drawn as it was.
-/

namespace Marginalia

variable (f : Motion)

/-- A callout on the moved span. -/
def Callout.moved (c : Callout Int) : Callout Int := { c with span := c.span.moved f }

/-- A callout on the moved span beside a line. -/
def Placed.moved (p : Placed Int) : Placed Int := ⟨p.callout.moved f, p.relation⟩

/-- A callout on the moved span under a line. -/
def Underlined.moved (u : Underlined Int) : Underlined Int := ⟨u.callout.moved f, u.columns⟩

theorem Callout.ofLabels_map_moved (palette : Palette) (index : Nat) (labels : List (Label Int)) :
    ofLabels palette index (labels.map (Label.moved f)) =
      (ofLabels palette index labels).map (moved f) := by
  induction labels generalizing index with
  | nil => rfl
  | cons l rest ih =>
    rw [List.map_cons, ofLabels, ih]
    rfl

namespace Gutter

variable {g : Glyphs} {room : Nat} (placed : List (Placed Int))

theorem besideLine_map_moved (depth : Nat) :
    besideLine g room depth (placed.map (Placed.moved f)) = besideLine g room depth placed := by
  induction placed generalizing depth with
  | nil => rfl
  | cons p rest ih =>
    rw [List.map_cons, besideLine, besideLine, ih, ih]
    rfl

theorem line_map_moved : line g room (placed.map (Placed.moved f)) = line g room placed := by
  rw [line, line, besideLine_map_moved]

theorem besideRow_map_moved (width waiting depth : Nat) (target : Option Nat) :
    besideRow g room width target waiting depth (placed.map (Placed.moved f)) =
      besideRow g room width target waiting depth placed := by
  induction placed generalizing depth with
  | nil => rfl
  | cons p rest ih =>
    rw [List.map_cons, besideRow, besideRow, ih, ih]
    rfl

theorem row_map_moved (width waiting : Nat) (target : Option Nat) :
    row g room width target waiting (placed.map (Placed.moved f)) =
      row g room width target waiting placed := by
  rw [row, row, besideRow_map_moved]

end Gutter

namespace Underline

variable {g : Glyphs} (us : List (Underlined Int))

theorem run_moved (u : Underlined Int) (start : Nat) : run g (u.moved f) start = run g u start := by
  have same : middleGlyph g (u.callout.moved f) = middleGlyph g u.callout := by
    simp only [middleGlyph, Callout.moved, Span.isPoint_moved]
    rfl
  simp only [run, Underlined.moved, same]
  rfl

theorem row_map_moved (done : Nat) :
    row g done (us.map (Underlined.moved f)) = row g done us := by
  induction us generalizing done with
  | nil => rfl
  | cons u rest ih =>
    rw [List.map_cons, row, row, ih, ih, run_moved]
    rfl

theorem bars_map_moved (target cursor : Nat) :
    bars g target cursor (us.map (Underlined.moved f)) = bars g target cursor us := by
  induction us generalizing cursor with
  | nil => rfl
  | cons u rest ih =>
    rw [List.map_cons, bars, bars, ih, ih]
    rfl

theorem labelRows_map_moved (u : Underlined Int) (text : List (List Char)) :
    labelRows g (us.map (Underlined.moved f)) (u.moved f) text = labelRows g us u text := by
  simp only [labelRows, bars_map_moved]
  rfl

theorem allLabelRows_map_moved (waiting : List (Underlined Int)) :
    allLabelRows g (waiting.map (Underlined.moved f)) (us.map (Underlined.moved f)) =
      allLabelRows g waiting us := by
  induction us generalizing waiting with
  | nil => rfl
  | cons u rest ih =>
    have behind := ih (u :: waiting)
    rw [List.map_cons] at behind
    rw [List.map_cons, allLabelRows, allLabelRows, ← List.map_reverse, ih, behind]
    simp only [labelRows_map_moved]
    rfl

theorem rows_map_moved : rows g (us.map (Underlined.moved f)) = rows g us := by
  have none_waiting := allLabelRows_map_moved f (g := g) us []
  rw [List.map_nil] at none_waiting
  rw [rows, rows, List.isEmpty_map, row_map_moved, none_waiting]

end Underline

end Marginalia
