import Mathlib.Data.List.Forall2
import Marginalia.Proofs.Text.Rows

/-!
# Wrapped lines

Every line of wrapped text is an indent with a piece of the text behind it: the first line has the
indent of its own, all others have the other one.  Text of printable characters takes no more room
than is left for it, so that no line is wider than the width unless the indents leave no column.
-/

namespace Marginalia.Text

/-- Whether a text is written in printable characters and line feeds. -/
def PrintableLines (cs : List Char) : Prop := ∀ c ∈ cs, c = '\n' ∨ IsPrintable c

instance (cs : List Char) : Decidable (PrintableLines cs) :=
  List.decidableBAll (fun c => c = '\n' ∨ IsPrintable c) cs

theorem PrintableLines.paragraph {cs paragraph : List Char} (printable : PrintableLines cs)
    (member : paragraph ∈ split '\n' cs) : Printable paragraph := by
  intro c inside
  rcases printable c (mem_of_mem_split member inside) with rfl | printable
  · exact absurd inside (separator_not_mem_split member)
  · exact printable

/-- Whether an indent is free of escapes but for renditions. -/
def IsIndent (cs : List Char) : Prop := ∃ bare, Adorned cs bare ∧ esc ∉ bare

/-- A printable text behind an indent adds its own columns. -/
theorem IsIndent.visibleWidth_append {indent cs : List Char} (given : IsIndent indent)
    (printable : Printable cs) : visibleWidth (indent ++ cs) = visibleWidth indent + cs.length := by
  obtain ⟨_, adorned, unescaped⟩ := given
  exact Text.visibleWidth_append adorned unescaped printable

namespace Wrapping

variable (w : Wrapping)

/-- What stands in front of a line, by the number of lines before it. -/
def indentAt (before : Nat) : List Char := if before = 0 then w.first else w.others

theorem lines_eq_mapIdx (text : List Char) :
    w.lines text = (w.pieces text).mapIdx fun i piece => w.indentAt i ++ piece := by
  unfold lines
  cases w.pieces text with
  | nil => rfl
  | cons piece rest =>
    refine List.ext_getElem? fun i => ?_
    cases i <;> simp [indentAt]

theorem fill_ne_nil (columns : Nat) (paragraph : List Char) : fill columns paragraph ≠ [] := by
  unfold fill
  dsimp only
  split
  · exact List.cons_ne_nil _ _
  · exact split_ne_nil _ _

/-- Text has a line even if there is nothing on it. -/
theorem lines_ne_nil (text : List Char) : w.lines text ≠ [] := by
  obtain ⟨paragraph, others, split_eq⟩ := List.exists_cons_of_ne_nil (split_ne_nil '\n' text)
  rw [lines_eq_mapIdx, pieces, split_eq, List.flatMap_cons]
  intro nothing
  rw [List.mapIdx_eq_nil_iff, List.append_eq_nil_iff] at nothing
  exact fill_ne_nil _ _ nothing.1

/-- How lines show a text.  What stands between two line feeds has rows of its own, and so each line
feed begins a new line.  The first line has the first indent and every other line the other one, and
a line is wider than the width only where the indents leave less than a column. -/
structure Wraps (text : List Char) (lines : List (List Char)) : Prop where
  rows : ∃ paragraphs : List (List (List Char)),
    List.Forall₂ (FilledInto w.room) (split '\n' text) paragraphs ∧
      lines = paragraphs.flatten.mapIdx fun i row => w.indentAt i ++ row
  short : ∀ line ∈ lines, visibleWidth line ≤ max w.width (w.indent + 1)

variable {w}

/-- Where the indents leave a column, no line is wider than the width. -/
theorem Wraps.within {text : List Char} {lines : List (List Char)} (wraps : w.Wraps text lines)
    (leaves : w.indent < w.width) : ∀ line ∈ lines, visibleWidth line ≤ w.width := by
  intro line member
  have short := wraps.short line member
  omega

theorem visibleWidth_indentAt_le (before : Nat) : visibleWidth (w.indentAt before) ≤ w.indent := by
  unfold indentAt
  split
  · exact Nat.le_max_left _ _
  · exact Nat.le_max_right _ _

/-- Behind an indent there is as much room as for the wider one. -/
theorem width_le_of_row {row : List Char} {before : Nat} (indents : IsIndent (w.indentAt before))
    (printable : Printable row) (short : row.length ≤ w.room) :
    visibleWidth (w.indentAt before ++ row) ≤ max w.width (w.indent + 1) := by
  have front : visibleWidth (w.indentAt before) ≤ w.indent := visibleWidth_indentAt_le before
  have room_eq : w.room = max 1 (w.width - w.indent) := rfl
  rw [indents.visibleWidth_append printable]
  omega

theorem lines_wraps (first : IsIndent w.first) (others : IsIndent w.others) {text : List Char}
    (printable : PrintableLines text) : w.Wraps text (w.lines text) := by
  have positive : 0 < w.room := Nat.le_max_left _ _
  have indents (before : Nat) : IsIndent (w.indentAt before) := by
    unfold indentAt
    split
    · exact first
    · exact others
  have filled : List.Forall₂ (FilledInto w.room) (split '\n' text)
      ((split '\n' text).map (fill w.room)) := by
    rw [List.forall₂_map_right_iff, List.forall₂_same]
    exact fun paragraph member => fill_filledInto positive (printable.paragraph member)
  refine ⟨⟨_, filled, ?_⟩, ?_⟩
  · rw [lines_eq_mapIdx, pieces, List.flatMap_def]
  · intro line member
    rw [lines_eq_mapIdx, List.mem_mapIdx] at member
    obtain ⟨before, bound, rfl⟩ := member
    obtain ⟨paragraph, inside, row⟩ := List.mem_flatMap.mp (List.getElem_mem bound)
    have rows := fill_filledInto positive (printable.paragraph inside)
    exact width_le_of_row (indents before) (rows.printable _ row) (rows.short _ row)

end Wrapping

end Marginalia.Text
