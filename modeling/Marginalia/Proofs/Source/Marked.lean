import Marginalia.Proofs.Source.Reading
import Marginalia.Proofs.Span.Moved

/-!
# A byte-order mark in front of a source

A byte-order mark put in front of a source moves each of its places by the three bytes of the mark.
The lines of the source are moved with them, but for the first one, which has the mark in front of
its own bytes.  So a span that is moved touches the same lines, and what is read for it is what was
read before; only where the lines are read from the first one on, the mark is read with them.
-/

namespace Marginalia

open Extent (table lineAt fullLines lineFeed)
open Contents (slice lastByte)

namespace Marked

/-- The bytes of a byte-order mark. -/
def mark : List UInt8 := [0xEF, 0xBB, 0xBF]

/-- Bytes with a byte-order mark in front. -/
def ofBytes (bytes : List UInt8) : List UInt8 := mark ++ bytes

/-- The mark moves every place of a source by its own bytes. -/
def motion : Motion where
  place position := position + 3
  ordered x y lt := by omega

variable {bytes : List UInt8}

@[simp] theorem place_eq (position : Int) : motion.place position = position + 3 := rfl

@[simp] theorem length_ofBytes (bytes : List UInt8) :
    (ofBytes bytes).length = bytes.length + 3 := by
  simp [ofBytes, mark]

/-- The mark ends with no byte of a terminator. -/
theorem getLast?_ofBytes_ne {b : UInt8} (other : b ≠ 0xBF) (last : bytes.getLast? ≠ some b) :
    (ofBytes bytes).getLast? ≠ some b := by
  rw [ofBytes, List.getLast?_append]
  cases eq : bytes.getLast? with
  | none => exact fun same => other (Option.some.inj same).symm
  | some c => rwa [eq] at last

/-- The bytes of a source are moved behind the mark. -/
theorem slice_ofBytes (bytes : List UInt8) (start stop : Nat) :
    slice (ofBytes bytes) (start + 3) (stop + 3) = slice bytes start stop := by
  rw [slice, slice, Nat.add_sub_add_right]
  rfl

end Marked

open Marked

/-! ## Lines -/

/-- Where a line begins once the mark is put in. -/
def Marked.begin (start : Nat) : Nat := if start = 0 then 0 else start + 3

/-- A line once the mark is put in. -/
def Extent.marked (line : Extent) : Extent :=
  ⟨begin line.start, line.stop + 3, line.terminator⟩

namespace Extent

variable {bytes : List UInt8} {line : Extent} {i : Nat}

private theorem tableFrom_marked (rest : List UInt8) (start position : Nat) (returned : Bool) :
    tableFrom (begin start) (position + 3) returned rest =
      (tableFrom start position returned rest).map marked := by
  induction rest generalizing start position returned with
  | nil => rfl
  | cons b rest ih =>
    by_cases feed : b = lineFeed
    · have behind := ih (position + 1) (position + 1) false
      rw [begin, if_neg (Nat.succ_ne_zero position), Nat.add_right_comm] at behind
      rw [tableFrom, if_pos feed, tableFrom, if_pos feed, List.map_cons, ← behind]
      simp only [marked, Nat.add_right_comm position 1 3]
    · rw [tableFrom, if_neg feed, tableFrom, if_neg feed, Nat.add_right_comm]
      exact ih start (position + 1) _

theorem table_marked (bytes : List UInt8) : table (ofBytes bytes) = (table bytes).map marked :=
  tableFrom_marked bytes 0 0 false

theorem getElem?_table_marked (found : (table bytes)[i]? = some line) :
    (table (ofBytes bytes))[i]? = some line.marked := by
  rw [table_marked, List.getElem?_map, found]
  rfl

theorem holds_marked {position : Int} (nonneg : 0 ≤ position) :
    line.marked.Holds (position + 3) ↔ line.Holds position := by
  simp only [Holds, Coordinate.Same, marked, begin]
  split <;> omega

/-- The first line is the one that begins with the source. -/
theorem start_eq_zero_iff (found : (table bytes)[i]? = some line) : line.start = 0 ↔ i = 0 := by
  obtain ⟨first, first_found, first_holds⟩ := @exists_line bytes 0 (Nat.zero_le _)
  constructor
  · intro start_eq
    have holds := (cuts_table bytes).holds_start line (List.mem_of_getElem? found)
    rw [start_eq] at holds
    exact (lineAt_of_holds found holds).symm
  · rintro rfl
    cases first_found.symm.trans found
    exact Int.ofNat_eq_zero.mp (Int.le_antisymm first_holds.1 (Int.natCast_nonneg _))

theorem begin_eq (found : (table bytes)[i]? = some line) :
    begin line.start = if i = 0 then 0 else line.start + 3 := by
  simp only [begin, start_eq_zero_iff found]

theorem exists_holds_marked {position : Int} (found : (table bytes)[i]? = some line)
    (holds : line.Holds position) :
    ∃ line, (table (ofBytes bytes))[i]? = some line ∧ line.Holds (position + 3) :=
  ⟨_, getElem?_table_marked found, (holds_marked holds.nonneg).mpr holds⟩

end Extent

/-! ## What is read -/

namespace Contents

variable {bytes : List UInt8} {s : Span Int} {before after first last : Nat} {c : Contents Int}

/-- What is read from the beginning of a line once the mark is put in: the first line of a source
is read with the mark. -/
def marked (c : Contents Int) : Contents Int where
  data := if c.line = 0 then ofBytes c.data else c.data
  start := if c.line = 0 then 0 else c.start + 3
  stop := c.stop + 3
  line := c.line
  column := c.column
  lineCount := c.lineCount

/-- What is read within a line once the mark is put in: on the first line of a source the mark is
among the bytes in front. -/
def behindMark (c : Contents Int) : Contents Int where
  data := c.data
  start := c.start + 3
  stop := c.stop + 3
  line := c.line
  column := if c.line = 0 then c.column + 3 else c.column
  lineCount := c.lineCount

theorem bottom_marked (bytes : List UInt8) (after last : Nat) :
    bottom (ofBytes bytes) after last = bottom bytes after last := by
  -- only the first line can have bytes that it did not have, and it is not looked at
  have same : ∀ line ∈ (table bytes).drop (last + 1),
      (!line.marked.isEmpty) = true ↔ (!line.isEmpty) = true := by
    intro line member
    obtain ⟨k, found⟩ := List.mem_iff_getElem?.mp member
    rw [List.getElem?_drop] at found
    have begin_eq := Extent.begin_eq found
    rw [if_neg (by omega)] at begin_eq
    simp only [Extent.isEmpty, Extent.marked, begin_eq, Nat.add_le_add_iff_right]
  rw [bottom, bottom, Extent.table_marked, ← List.map_drop, List.countP_map]
  exact congrArg (fun count => last + min after count) (List.countP_congr same)

theorem inside_marked (inside : s.Inside bytes) : (s.moved motion).Inside (ofBytes bytes) := by
  obtain ⟨offset, length, stop⟩ := inside
  have stop_eq := s.stop_eq
  refine ⟨?_, ?_, ?_⟩
  · rw [Span.offset_moved, place_eq]
    omega
  · rw [Span.length_moved, place_eq, place_eq]
    omega
  · rw [Span.stop_moved, place_eq, length_ofBytes]
    omega

theorem lastByte_marked (s : Span Int) : lastByte (s.moved motion) = lastByte s + 3 := by
  rw [lastByte_eq, lastByte_eq]
  simp only [Span.length_moved_pos_iff, Span.offset_moved, Span.stop_moved, place_eq]
  split <;> omega

theorem marked_start_eq {line : Extent} (found : (table bytes)[c.line]? = some line)
    (start_eq : c.start = line.start) : c.marked.start = line.marked.start := by
  have begin_eq := Extent.begin_eq found
  simp only [marked, Extent.marked, begin_eq, start_eq]
  split <;> simp

section

variable (dictates : Dictates bytes s before after first last c)

include dictates

theorem Dictates.exists_stop_marked :
    ∃ line, (table (ofBytes bytes))[bottom (ofBytes bytes) after last]? = some line ∧
      c.stop + 3 = line.stop := by
  obtain ⟨line, found, stop_eq⟩ := dictates.stop_eq
  rw [bottom_marked]
  exact ⟨_, Extent.getElem?_table_marked found, congrArg (· + 3) stop_eq⟩

theorem Dictates.lineCount_marked :
    c.lineCount = bottom (ofBytes bytes) after last - c.line + 1 := by
  rw [bottom_marked]
  exact dictates.lineCount_eq

/-- Where lines begin with the bytes of the source, the mark is read with them. -/
theorem Dictates.data_marked {line : Extent} (found : (table bytes)[c.line]? = some line)
    (start_eq : c.start = line.start) :
    c.marked.data = slice (ofBytes bytes) c.marked.start.toNat c.marked.stop := by
  have data_eq := dictates.data_eq
  by_cases top : c.line = 0
  · have start_zero := (Extent.start_eq_zero_iff found).mpr top
    rw [start_eq, start_zero] at data_eq
    simp only [marked, if_pos top, data_eq]
    rfl
  · have toNat_eq : (c.start + 3).toNat = c.start.toNat + 3 := by omega
    simp only [marked, if_neg top, toNat_eq, slice_ofBytes]
    exact data_eq

/-- What the lines dictate for a span with lines in front of it they dictate for the moved span. -/
theorem Dictates.marked (some_before : 0 < before) :
    Dictates (ofBytes bytes) (s.moved motion) before after first last c.marked := by
  obtain ⟨column_eq, line, found, start_eq⟩ := dictates.start_of_lines some_before
  refine ⟨?_, ?_, dictates.line_eq, dictates.lineCount_marked, dictates.exists_stop_marked, ?_, ?_,
    dictates.data_marked found start_eq⟩
  · obtain ⟨line, found, holds⟩ := dictates.first_holds
    exact Extent.exists_holds_marked found holds
  · obtain ⟨line, found, holds⟩ := dictates.last_holds
    rw [lastByte_marked]
    exact Extent.exists_holds_marked found holds
  · exact fun _ => ⟨column_eq, _, Extent.getElem?_table_marked found,
      marked_start_eq found start_eq⟩
  · omega

/-- What the lines dictate for a span alone they dictate for the moved span. -/
theorem Dictates.behindMark (none_before : before = 0) :
    Dictates (ofBytes bytes) (s.moved motion) before after first last c.behindMark := by
  obtain ⟨start_eq, line, found, column_eq⟩ := dictates.start_of_span none_before
  refine ⟨?_, ?_, dictates.line_eq, dictates.lineCount_marked, dictates.exists_stop_marked, ?_, ?_,
    ?_⟩
  · obtain ⟨line, found, holds⟩ := dictates.first_holds
    exact Extent.exists_holds_marked found holds
  · obtain ⟨line, found, holds⟩ := dictates.last_holds
    rw [lastByte_marked]
    exact Extent.exists_holds_marked found holds
  · omega
  · refine fun _ => ⟨congrArg (· + 3) start_eq, _, Extent.getElem?_table_marked found, ?_⟩
    have begin_eq := Extent.begin_eq found
    have first_eq : c.line = first := by
      rw [dictates.line_eq]
      omega
    have zero_iff := Extent.start_eq_zero_iff found
    simp only [Contents.behindMark, Extent.marked, begin_eq, first_eq, column_eq,
      Span.offset_moved, place_eq]
    split <;> omega
  · have nonneg := dictates.start_nonneg
    have toNat_eq : (c.start + 3).toNat = c.start.toNat + 3 := by omega
    simp only [Contents.behindMark, toNat_eq, slice_ofBytes]
    exact dictates.data_eq

end

theorem behindMark_eq_marked (below : c.line ≠ 0) : c.behindMark = c.marked := by
  simp only [behindMark, marked, if_neg below]

/-- What becomes of what is read with some lines of context in front. -/
def withMark (before : Nat) (c : Contents Int) : Contents Int :=
  if before = 0 then c.behindMark else c.marked

theorem read_marked (inside : s.Inside bytes) (succeeded : read bytes s before after = .ok c) :
    read (ofBytes bytes) (s.moved motion) before after = .ok (c.withMark before) := by
  obtain ⟨first, last, dictates⟩ := dictates_of_read inside succeeded
  rw [withMark]
  split
  · rename_i none_before
    exact read_eq_of_dictates (inside_marked inside) (dictates.behindMark none_before)
  · exact read_eq_of_dictates (inside_marked inside) (dictates.marked (by omega))

/-- A span from the beginning of the source is read with the mark once it has the mark. -/
theorem read_with_mark {stop : Int} (nonneg : 0 ≤ stop)
    (succeeded : read bytes ⟨0, stop⟩ (0 : Nat) after = .ok c) :
    read (ofBytes bytes) ⟨0, stop + 3⟩ (0 : Nat) after = .ok c.marked := by
  have bounded := stop_le_of_read succeeded
  rw [Span.stop_eq] at bounded
  have inside : (⟨0, stop⟩ : Span Int).Inside bytes := ⟨Int.le_refl _, nonneg, bounded⟩
  have inside' : (⟨0, stop + 3⟩ : Span Int).Inside (ofBytes bytes) := by
    refine ⟨Int.le_refl _, Int.add_nonneg nonneg (by decide), ?_⟩
    rw [Span.stop_eq, length_ofBytes]
    dsimp only at bounded ⊢
    omega
  obtain ⟨first, last, dictates⟩ := dictates_of_read inside succeeded
  obtain ⟨start_eq, line, found, column_eq⟩ := dictates.start_of_span rfl
  obtain ⟨first_line, first_found, first_holds⟩ := dictates.first_holds
  cases found.symm.trans first_found
  have start_zero : line.start = 0 :=
    Int.ofNat_eq_zero.mp (Int.le_antisymm first_holds.1 (Int.natCast_nonneg _))
  have first_zero := (Extent.start_eq_zero_iff found).mp start_zero
  have line_zero : c.line = 0 := by
    rw [dictates.line_eq, first_zero]
    rfl
  have line_start : c.start = line.start := by
    rw [start_eq, start_zero]
    rfl
  refine read_eq_of_dictates inside' ⟨?_, ?_, dictates.line_eq, dictates.lineCount_marked,
    dictates.exists_stop_marked, ?_, ?_, dictates.data_marked ?_ line_start⟩
  · refine ⟨_, Extent.getElem?_table_marked found, ?_⟩
    simp only [Extent.Holds, Extent.marked, Marked.begin, start_zero, if_true]
    omega
  · obtain ⟨last_line, last_found, last_holds⟩ := dictates.last_holds
    refine ⟨_, Extent.getElem?_table_marked last_found, ?_⟩
    rw [lastByte_eq, Span.stop_eq] at last_holds ⊢
    simp only [Extent.Holds, Coordinate.Same, Extent.marked, Marked.begin] at last_holds ⊢
    split at last_holds <;> split <;> split <;> omega
  · omega
  · refine fun _ => ⟨by simp [marked, line_zero], _, Extent.getElem?_table_marked found, ?_⟩
    simp only [marked, Extent.marked, Marked.begin, start_zero, column_eq]
    rfl
  · rw [line_zero, ← first_zero]
    exact found

/-- A position is located where it was, behind the mark on the first line. -/
theorem locate_marked {position : Int} {found : Nat × Int} (nonneg : 0 ≤ position)
    (bounded : position ≤ bytes.length) (located : locate bytes position = .ok found) :
    locate (ofBytes bytes) (position + 3) =
      .ok (found.1, if found.1 = 0 then found.2 + 3 else found.2) := by
  have inside : (⟨position, ((0 : Nat) : Int)⟩ : Span Int).Inside bytes :=
    ⟨nonneg, Int.le_refl _, by simpa [Span.stop_eq] using bounded⟩
  obtain ⟨c, succeeded⟩ := exists_read inside 0 0
  have moved := read_marked inside succeeded
  rw [Span.moved_point] at moved
  have found_eq : locate bytes position = .ok (c.line, c.column) :=
    congrArg (Except.map _) succeeded
  rw [located, Except.ok.injEq] at found_eq
  rw [found_eq]
  exact congrArg (Except.map _) moved

end Contents

end Marginalia
