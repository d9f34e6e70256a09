import Marginalia.Proofs.Source.Reading

/-!
# Whole lines

Contents without a column are whole lines.  Those with a column begin within their first line, which
happens only without lines of context in front.  Read again from the beginning of that line they are
whole and touch the same lines, because the ends of the span stay on their lines.
-/

namespace Marginalia.Contents

open Extent (table lineAt)

variable {bytes : List UInt8} {before after : Nat}

/-- Spans that begin together are read from the same line on. -/
theorem line_eq_of_offset_eq {s t : Span Int} {c d : Contents Int}
    (inside : s.Inside bytes) (inside' : t.Inside bytes)
    (succeeded : read bytes s before after = .ok c)
    (succeeded' : read bytes t before after = .ok d) (same : s.offset = t.offset) :
    c.line = d.line := by
  rw [(line_reach_of_read inside succeeded).1, (line_reach_of_read inside' succeeded').1, same]

theorem Dictates.exists_last {s : Span Int} {first last : Nat} {c : Contents Int}
    (dictates : Dictates bytes s before after first last c) :
    ∃ k line, c.lineCount = k + 1 ∧ (table bytes)[c.line + k]? = some line ∧
      c.stop = line.stop := by
  obtain ⟨bottom_line, bottom_found, stop_eq⟩ := dictates.stop_eq
  refine ⟨bottom bytes after last - c.line, bottom_line, dictates.lineCount_eq, ?_, stop_eq⟩
  rwa [Nat.add_sub_cancel' dictates.line_le_bottom]

/-- Contents from the beginning of their first line to the end of their last one. -/
structure Whole (bytes : List UInt8) (c : Contents Int) : Prop where
  first : ∃ line, (table bytes)[c.line]? = some line ∧ c.start = line.start
  last : ∃ k line, c.lineCount = k + 1 ∧ (table bytes)[c.line + k]? = some line ∧
    c.stop = line.stop
  data_eq : c.data = slice bytes c.start.toNat c.stop

/-- Contents that begin without a column begin with their first line. -/
theorem whole_of_read {s : Span Int} {c : Contents Int} (inside : s.Inside bytes)
    (succeeded : read bytes s before after = .ok c) (begins : c.column = 0) : c.Whole bytes := by
  obtain ⟨first, last, dictates⟩ := dictates_of_read inside succeeded
  have line_eq := dictates.line_eq
  refine ⟨?_, dictates.exists_last, dictates.data_eq⟩
  by_cases some_before : 0 < before
  · exact (dictates.start_of_lines some_before).2
  · have none_before : before = 0 := by omega
    obtain ⟨start_eq, first_line, first_found, column_eq⟩ := dictates.start_of_span none_before
    rw [none_before, Nat.zero_min, Nat.sub_zero] at line_eq
    refine ⟨first_line, line_eq ▸ first_found, ?_⟩
    rw [begins] at column_eq
    omega

/-- A span that is moved back to the beginning of its line has its ends on the same lines. -/
theorem lineAt_moved_back {s : Span Int} {line : Extent} {i : Nat}
    (inside : s.Inside bytes) (found : (table bytes)[i]? = some line)
    (holds : line.Holds s.offset) (begun : (line.start : Int) < s.offset) :
    lineAt bytes line.start = lineAt bytes s.offset.toNat ∧
      lineAt bytes (lastByte (⟨line.start, s.stop - line.start⟩ : Span Int)).toNat =
        lineAt bytes (lastByte s).toNat := by
  have length := inside.length
  have stop_eq := Span.stop_eq s
  have lineAt_eq := Extent.lineAt_toNat_of_holds found holds
  constructor
  · have start_holds : line.Holds (line.start : Int) :=
      holds.of_le (Int.le_refl _) (Int.le_of_lt begun)
    rw [Extent.lineAt_of_holds found start_holds, lineAt_eq]
  · have moved_eq : lastByte (⟨line.start, s.stop - line.start⟩ : Span Int) = s.stop - 1 := by
      have moved_length : 0 < s.stop - (line.start : Int) := by omega
      rw [lastByte_eq, if_pos moved_length, Span.stop_eq]
      dsimp only
      omega
    rw [moved_eq, lastByte_eq]
    split
    · rfl
    · have last_holds : line.Holds (s.stop - 1) := holds.of_le (by omega) (by omega)
      rw [Extent.lineAt_toNat_of_holds found last_holds, lineAt_eq]

/-- A span that begins with a line is read without a column. -/
theorem column_eq_zero {s : Span Int} {c : Contents Int} {line : Extent} {i : Nat}
    (inside : s.Inside bytes) (succeeded : read bytes s before after = .ok c)
    (found : (table bytes)[i]? = some line) (holds : line.Holds s.offset)
    (begins : s.offset = line.start) : c.column = 0 := by
  obtain ⟨first, last, dictates⟩ := dictates_of_read inside succeeded
  by_cases some_before : 0 < before
  · exact (dictates.start_of_lines some_before).1
  · obtain ⟨-, start_line, start_found, column_eq⟩ := dictates.start_of_span (by omega)
    rw [← dictates.lineAt_offset, Extent.lineAt_toNat_of_holds found holds, found] at start_found
    cases start_found
    omega

/-- A column is what lies on the line of the span in front of it. -/
theorem exists_line_of_column {s : Span Int} {c : Contents Int} (inside : s.Inside bytes)
    (succeeded : read bytes s before after = .ok c) (begins : c.column ≠ 0) :
    ∃ (i : Nat) (line : Extent), (table bytes)[i]? = some line ∧ line.Holds s.offset ∧
      s.offset - c.column = line.start ∧ (line.start : Int) < s.offset := by
  obtain ⟨first, last, dictates⟩ := dictates_of_read inside succeeded
  have none_before : before = 0 := by
    refine Nat.eq_zero_of_not_pos fun some_before => begins ?_
    exact (dictates.start_of_lines some_before).1
  obtain ⟨line, found, holds⟩ := dictates.first_holds
  obtain ⟨-, start_line, start_found, column_eq⟩ := dictates.start_of_span none_before
  cases found.symm.trans start_found
  have start_le := holds.1
  exact ⟨first, line, found, holds, by omega, by omega⟩

/-- Contents that begin with a column are read again without one, on the same lines. -/
theorem exists_read_moved_back {s : Span Int} {c : Contents Int}
    (inside : s.Inside bytes) (succeeded : read bytes s before after = .ok c)
    (begins : c.column ≠ 0) :
    ∃ d, read bytes ⟨s.offset - c.column, s.stop - (s.offset - c.column)⟩ before after =
      .ok d ∧ d.Whole bytes ∧ d.line = c.line ∧ d.reach = c.reach := by
  obtain ⟨i, line, found, holds, start_eq, begun⟩ := exists_line_of_column inside succeeded begins
  have start_holds : line.Holds (line.start : Int) :=
    holds.of_le (Int.le_refl _) (Int.le_of_lt begun)
  have moved_inside := inside.moved_back (Int.le_of_lt begun)
  obtain ⟨d, reread⟩ := exists_read moved_inside before after
  obtain ⟨first_eq, last_eq⟩ := lineAt_moved_back inside found holds begun
  obtain ⟨line_eq, reach_eq⟩ := line_reach_of_read inside succeeded
  obtain ⟨line_eq', reach_eq'⟩ := line_reach_of_read moved_inside reread
  have column_zero := column_eq_zero moved_inside reread found start_holds rfl
  rw [start_eq]
  refine ⟨d, reread, whole_of_read moved_inside reread column_zero, ?_, ?_⟩
  · rw [line_eq', line_eq, ← first_eq]
    rfl
  · rw [reach_eq', reach_eq, last_eq]

end Marginalia.Contents
