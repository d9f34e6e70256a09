import Marginalia.Proofs.Snippet.Placement

/-!
# Windows from the beginning of their first line

To be drawn, a window is read once more unless it has no column.  It is then read for another span,
from the beginning of a line on, and what was a point may have become a span with bytes.  The last
byte of the longer span is still on the line of the last byte of the window, so the window keeps its
first line, its last line and its end, and all that is new is the front of its first line.
-/

namespace Marginalia

variable {bytes : List UInt8} {before after : Nat}

namespace Contents

/-- Whole lines begin and end between characters of well-formed text. -/
theorem Whole.exists_parts {c : Contents Int} {text : List Char} (whole : c.Whole bytes)
    (encoded : bytes = Utf8.encode text) :
    ∃ front middle back, text = front ++ middle ++ back ∧ c.start = Utf8.length front ∧
      c.data = Utf8.encode middle := by
  obtain ⟨front, rest, rfl, behind⟩ := whole.exists_text encoded
  obtain ⟨middle, back, rfl, data_eq⟩ := whole.exists_data behind
  refine ⟨front, middle, back, (List.append_assoc _ _ _).symm, ?_, data_eq⟩
  obtain ⟨line, found, start_eq⟩ := whole.first
  have bounds := (Extent.cuts_table bytes).bounds line (List.mem_of_getElem? found)
  -- what stands behind the beginning is as long on both sides
  have length_eq := congrArg List.length behind
  have whole_length := congrArg List.length encoded
  rw [List.length_drop, Utf8.length_encode] at length_eq
  rw [Utf8.length_encode, Utf8.length_append] at whole_length
  omega

end Contents

namespace Window

variable {source : Source} {w : Window Int} {c : Contents Int}

/-- A window made ready has no column. -/
theorem MadeOfLabels.column_eq_zero (made : w.MadeOfLabels source.bytes before after)
    (aligned : w.aligned source before after = .ok c) : c.column = 0 := by
  have inside := made.valid.inside (Contents.stop_le_of_read made.read)
  by_cases begins : w.contents.column = 0
  · rw [Window.aligned, if_pos (by simp [Coordinate.Same, begins])] at aligned
    cases aligned
    exact begins
  · rw [Window.aligned, if_neg (by simp [Coordinate.Same]; omega)] at aligned
    obtain ⟨i, line, found, holds, start_eq, begun⟩ :=
      Contents.exists_line_of_column inside made.read begins
    have start_holds : line.Holds (line.start : Int) :=
      holds.of_le (Int.le_refl _) (Int.le_of_lt begun)
    dsimp only at aligned
    rw [start_eq] at aligned
    exact Contents.column_eq_zero (inside.moved_back (Int.le_of_lt begun)) aligned found
      start_holds rfl

/-- The windows of valid labels are always made ready, and then they are whole lines without a
column: the lines that they touched, up to where they ended, with all that they span.  In
well-formed text no character is cut. -/
theorem aligned_to_whole_lines (source : Source) (labels : List (Label Int)) (before after : Nat)
    (valid : ∀ l ∈ labels, l.span.Valid) :
    ∃ m, Merge.ofLabels source.bytes labels before after = .ok m ∧
      ∀ w ∈ m.windows, ∃ c, w.aligned source before after = .ok c ∧ c.Whole source.bytes ∧
        c.column = 0 ∧ c.line = w.contents.line ∧ c.lineCount = w.contents.lineCount ∧
        c.stop = w.contents.stop ∧ c.start ≤ w.span.offset ∧ w.span.stop ≤ c.stop ∧
        ∀ text, source.bytes = Utf8.encode text → ∃ front middle back,
          text = front ++ middle ++ back ∧ c.start = Utf8.length front ∧
            c.data = Utf8.encode middle := by
  obtain ⟨m, gathered, gathers⟩ := Merge.exists_gathers valid source.bytes before after
  refine ⟨m, gathered, fun w member => ?_⟩
  have made := gathers.madeOfLabels w member
  have inside := made.valid.inside (Contents.stop_le_of_read made.read)
  obtain ⟨c, aligned, whole, line_eq, reach_eq⟩ := made.exists_aligned
  obtain ⟨start_le, stop_eq⟩ :=
    whole.covers (Contents.runs_of_read inside made.read) line_eq reach_eq
  obtain ⟨first, last, dictates⟩ := Contents.dictates_of_read inside made.read
  obtain ⟨begun, ended⟩ := dictates.covers inside
  have lineCount_eq : c.lineCount = w.contents.lineCount := by
    rw [Contents.reach, Contents.reach, line_eq] at reach_eq
    exact Nat.add_left_cancel reach_eq
  exact ⟨c, aligned, whole, made.column_eq_zero aligned, line_eq, lineCount_eq, stop_eq,
    Int.le_trans start_le begun, stop_eq ▸ ended, fun text encoded => whole.exists_parts encoded⟩

/-- A point within the character in the middle of a line, read without lines of context. -/
theorem aligned_to_whole_lines_in_character :
    (∀ l ∈ [(⟨⟨2, 0⟩, none, none⟩ : Label Int)], l.span.Valid) ∧
      ∃ m, Merge.ofLabels (Source.ofText "aéb\nc").bytes [(⟨⟨2, 0⟩, none, none⟩ : Label Int)]
          (0 : Nat) 0 = .ok m ∧
        ∀ w ∈ m.windows, ∃ c, w.aligned (.ofText "aéb\nc") (0 : Nat) 0 = .ok c ∧
          c.Whole (Source.ofText "aéb\nc").bytes ∧ c.column = 0 := by
  refine ⟨by decide, ?_⟩
  obtain ⟨m, gathered, ready⟩ :=
    aligned_to_whole_lines (.ofText "aéb\nc") [⟨⟨2, 0⟩, none, none⟩] 0 0 (by decide)
  refine ⟨m, gathered, fun w member => ?_⟩
  obtain ⟨c, aligned, whole, column_eq, -⟩ := ready w member
  exact ⟨c, aligned, whole, column_eq⟩

end Window

end Marginalia
