import Marginalia.Proofs.Source.Position
import Marginalia.Proofs.Span.Basic
import Marginalia.Source.Contents

/-!
# Reading a span

The reader walks along the lines of a source with three things to find one after the other: the
line of the beginning of the span, the line of its last byte, and lines of context.  `Knows` says
what it knows at any line on its way; every step keeps that, so the walk ends with what the lines of
the source dictate.  For a span within the source this is never a failure.
-/

namespace Marginalia

open Extent (table lineAt fullLines)

namespace Contents

/-! ## The last byte -/

theorem lastByte_eq (s : Span Int) :
    lastByte s = if 0 < s.length then s.stop - 1 else s.offset := rfl

theorem offset_le_lastByte (s : Span Int) : s.offset ≤ lastByte s := by
  rw [lastByte_eq, Span.stop_eq]
  split <;> omega

theorem lastByte_le_stop {s : Span Int} (length : 0 ≤ s.length) : lastByte s ≤ s.stop := by
  rw [lastByte_eq, Span.stop_eq]
  split <;> omega

/-! ## What the reader knows -/

namespace Progress

/-- The lines kept in front of a line are the nearest ones, at most `before` of them. -/
structure Kept (bytes : List UInt8) (before index : Nat) (leading : List Nat) (dropped : Nat) :
    Prop where
  dropped_eq : dropped = index - before
  leading_eq : leading = (((table bytes).take index).drop dropped).map Extent.start

/-- The line on which a span begins, with the lines kept in front of it. -/
structure Opens (bytes : List UInt8) (s : Span Int) (before : Nat) (top : Opening) : Prop where
  kept : Kept bytes before top.index top.leading top.dropped
  holds : ∃ line, (table bytes)[top.index]? = some line ∧ line.Holds s.offset ∧
    top.start = line.start

/-- What the reader knows in front of the line with some index. -/
def Knows (bytes : List UInt8) (s : Span Int) (before after index : Nat) : Progress → Prop
  | ahead leading dropped =>
    Kept bytes before index leading dropped ∧
      ∀ i line, i < index → (table bytes)[i]? = some line → ¬line.Holds s.offset
  | within top =>
    Opens bytes s before top ∧ top.index < index ∧
      ∀ i line, top.index ≤ i → i < index → (table bytes)[i]? = some line →
        ¬line.Holds (lastByte s)
  | behind top last stop trailing =>
    Opens bytes s before top ∧ last < index ∧
      (∃ line, (table bytes)[last]? = some line ∧ line.Holds (lastByte s)) ∧
      trailing = min after (min index (fullLines bytes) - (last + 1)) ∧
      ∃ line, (table bytes)[last + trailing]? = some line ∧ stop = line.stop

variable {bytes : List UInt8} {s : Span Int} {before after index : Nat} {line : Extent}

theorem kept_zero : Kept bytes before 0 [] 0 := ⟨by simp, by simp⟩

/-- The starts in front of the line behind one, from those in front of that one. -/
private theorem starts_succ (found : (table bytes)[index]? = some line) {dropped : Nat}
    (le : dropped ≤ index) :
    (((table bytes).take (index + 1)).drop dropped).map Extent.start =
      (((table bytes).take index).drop dropped).map Extent.start ++ [line.start] := by
  have inside : index < (table bytes).length := (List.getElem?_eq_some_iff.mp found).1
  rw [List.take_add_one, found, List.drop_append_of_le_length (by simp; omega)]
  simp

theorem pass_knows {leading : List Nat} {dropped : Nat}
    (found : (table bytes)[index]? = some line) (away : ¬line.Holds s.offset)
    (knows : Knows bytes s before after index (.ahead leading dropped)) :
    Knows bytes s before after (index + 1) (pass before leading dropped line) := by
  obtain ⟨⟨rfl, rfl⟩, others⟩ := knows
  have inside : index < (table bytes).length := (List.getElem?_eq_some_iff.mp found).1
  have none_holds : ∀ i line, i < index + 1 → (table bytes)[i]? = some line →
      ¬line.Holds s.offset := by
    intro i other lt found'
    rcases Nat.lt_succ_iff_lt_or_eq.mp lt with lt | rfl
    · exact others i other lt found'
    · rw [found] at found'
      cases found'
      exact away
  have kept : ((((table bytes).take index).drop (index - before)).map Extent.start).length =
      min before index := by
    simp
    omega
  unfold pass
  rw [kept]
  split
  · rename_i room
    have none_dropped : index + 1 - before = index - before := by omega
    refine ⟨⟨by rw [none_dropped], ?_⟩, none_holds⟩
    rw [starts_succ found (by omega)]
  · rename_i full
    have one_dropped : index - before + 1 = index + 1 - before := by omega
    refine ⟨⟨one_dropped, ?_⟩, none_holds⟩
    rw [← starts_succ found (by omega), ← List.map_tail, List.tail_drop]

theorem reach_knows {top : Opening} (found : (table bytes)[index]? = some line)
    (opens : Opens bytes s before top) (le : top.index ≤ index)
    (others : ∀ i line, top.index ≤ i → i < index → (table bytes)[i]? = some line →
      ¬line.Holds (lastByte s)) :
    Knows bytes s before after (index + 1) (reach s top index line) := by
  unfold reach
  split
  · rename_i holds
    refine ⟨opens, Nat.lt_succ_self _, ⟨line, found, holds⟩, ?_, line, found, rfl⟩
    omega
  · rename_i away
    refine ⟨opens, Nat.lt_succ_of_le le, fun i other le' lt found' => ?_⟩
    rcases Nat.lt_succ_iff_lt_or_eq.mp lt with lt | rfl
    · exact others i other le' lt found'
    · rw [found] at found'
      cases found'
      exact away

/-- One more line keeps what the reader knows. -/
theorem step_knows {p : Progress} (found : (table bytes)[index]? = some line)
    (knows : Knows bytes s before after index p) :
    Knows bytes s before after (index + 1) (p.step before s after index line) := by
  cases p with
  | ahead leading dropped =>
    simp only [step]
    split
    · rename_i holds
      refine reach_knows found ⟨knows.1, line, found, holds, rfl⟩ (Nat.le_refl _) ?_
      exact fun i other le lt => absurd lt (Nat.not_lt.mpr le)
    · rename_i away
      exact pass_knows found away knows
  | within top =>
    obtain ⟨opens, lt, others⟩ := knows
    exact reach_knows found opens (Nat.le_of_lt lt) others
  | behind top last stop trailing =>
    obtain ⟨opens, lt, holds, count, taken⟩ := knows
    have full_iff := Extent.isEmpty_iff found
    simp only [step]
    split
    · rename_i more
      have full : index < fullLines bytes := by
        have := more.2
        rw [full_iff] at this
        omega
      have next : last + (trailing + 1) = index := by omega
      refine ⟨opens, Nat.lt_succ_of_lt lt, holds, by omega, line, ?_, rfl⟩
      rw [next]
      exact found
    · rename_i enough
      refine ⟨opens, Nat.lt_succ_of_lt lt, holds, ?_, taken⟩
      rw [full_iff] at enough
      omega

/-- The walk ends with what the reader knows behind some line, which is the last one unless no
line is missing. -/
theorem walk_knows {p : Progress} {lines : List Extent} (rest : lines = (table bytes).drop index)
    (bounded : index ≤ (table bytes).length) (knows : Knows bytes s before after index p) :
    ∃ behind, Knows bytes s before after behind (walk before s after index p lines) ∧
      behind ≤ (table bytes).length ∧
      ((walk before s after index p lines).isDone after = true ∨
        behind = (table bytes).length) := by
  induction lines generalizing index p with
  | nil =>
    refine ⟨index, knows, bounded, .inr ?_⟩
    have := List.drop_eq_nil_iff.mp rest.symm
    omega
  | cons line lines ih =>
    have found : (table bytes)[index]? = some line := by
      have := congrArg (·[0]?) rest
      simpa using this.symm
    have inside : index < (table bytes).length := (List.getElem?_eq_some_iff.mp found).1
    have kept := step_knows found knows
    simp only [walk]
    split
    · rename_i done
      exact ⟨index + 1, kept, inside, .inl done⟩
    · refine ih ?_ inside kept
      rw [← List.drop_drop, ← rest]
      rfl

/-- The walk along all lines finds both ends of a span within the source, and takes as many full
lines behind it as there are, up to `after`. -/
theorem walk_table (inside : s.Inside bytes) (before after : Nat) :
    ∃ top last stop trailing,
      walk before s after 0 (.ahead [] 0) (table bytes) = .behind top last stop trailing ∧
        Opens bytes s before top ∧
        (∃ line, (table bytes)[last]? = some line ∧ line.Holds (lastByte s)) ∧
        trailing = min after (fullLines bytes - (last + 1)) ∧
        ∃ line, (table bytes)[last + trailing]? = some line ∧ stop = line.stop := by
  have length := inside.length
  have offset_le := offset_le_lastByte s
  have lastByte_le := lastByte_le_stop length
  obtain ⟨offset, offset_eq⟩ := Int.eq_ofNat_of_zero_le inside.offset
  obtain ⟨ending, ending_eq⟩ := Int.eq_ofNat_of_zero_le (Int.le_trans inside.offset offset_le)
  have stop := inside.stop
  have offset_inside : offset ≤ bytes.length := by omega
  have ending_inside : ending ≤ bytes.length := by omega
  obtain ⟨first, first_found, first_holds⟩ := Extent.exists_line offset_inside
  obtain ⟨final, final_found, final_holds⟩ := Extent.exists_line ending_inside
  rw [← offset_eq] at first_holds
  rw [← ending_eq] at final_holds
  have first_inside := (List.getElem?_eq_some_iff.mp first_found).1
  have final_inside := (List.getElem?_eq_some_iff.mp final_found).1
  have nothing : Knows bytes s before after 0 (.ahead [] 0) :=
    ⟨kept_zero, fun _ _ lt => absurd lt (Nat.not_lt_zero _)⟩
  obtain ⟨behind, knows, bounded, ended⟩ := walk_knows rfl (Nat.zero_le _) nothing
  rw [List.drop_zero] at knows ended
  generalize walk before s after 0 (.ahead [] 0) (table bytes) = reached at knows ended
  cases reached with
  | ahead leading dropped =>
    rcases ended with done | rfl
    · contradiction
    · exact absurd first_holds (knows.2 _ first first_inside first_found)
  | within top =>
    rcases ended with done | rfl
    · contradiction
    · obtain ⟨opens, _, others⟩ := knows
      obtain ⟨line, found, holds, _⟩ := opens.holds
      have le := Extent.index_le_of_holds found holds final_found final_holds offset_le
      exact absurd final_holds (others _ final le final_inside final_found)
  | behind top last stop trailing =>
    obtain ⟨opens, lt, holds, count, taken⟩ := knows
    refine ⟨top, last, stop, trailing, rfl, opens, holds, ?_, taken⟩
    have full_le := Extent.fullLines_le_length bytes
    rcases ended with done | rfl
    · have enough : after ≤ trailing := by simpa [isDone] using done
      omega
    · omega

end Progress

/-! ## What is read -/

/-- The line on which a window ends whose span has its last byte on the line `last`: up to `after`
lines with bytes are taken behind that. -/
def bottom (bytes : List UInt8) (after last : Nat) : Nat :=
  last + min after (((table bytes).drop (last + 1)).countP (!·.isEmpty))

/-- Whether a line is among those that were read. -/
def Touches (c : Contents Int) (i : Nat) : Prop := c.line ≤ i ∧ i < c.line + c.lineCount

instance (c : Contents Int) (i : Nat) : Decidable (c.Touches i) :=
  inferInstanceAs (Decidable (_ ∧ _))

/-- What the lines of a source dictate for a span that begins on the line `first` and has its last
byte on the line `last`. -/
structure Dictates (bytes : List UInt8) (s : Span Int) (before after first last : Nat)
    (c : Contents Int) : Prop where
  first_holds : ∃ line, (table bytes)[first]? = some line ∧ line.Holds s.offset
  last_holds : ∃ line, (table bytes)[last]? = some line ∧ line.Holds (lastByte s)
  line_eq : c.line = first - min before first
  lineCount_eq : c.lineCount = bottom bytes after last - c.line + 1
  stop_eq : ∃ line, (table bytes)[bottom bytes after last]? = some line ∧ c.stop = line.stop
  start_of_lines : 0 < before →
    c.column = 0 ∧ ∃ line, (table bytes)[c.line]? = some line ∧ c.start = line.start
  start_of_span : before = 0 →
    c.start = s.offset ∧
      ∃ line, (table bytes)[first]? = some line ∧ c.column = s.offset - line.start
  data_eq : c.data = slice bytes c.start.toNat c.stop

variable {bytes : List UInt8} {s : Span Int} {before after first last : Nat} {c : Contents Int}

theorem bottom_eq (after last : Nat) :
    bottom bytes after last = last + min after (fullLines bytes - (last + 1)) := by
  rw [bottom, Extent.countP_drop_table]

theorem bottom_mono {last later : Nat} (le : last ≤ later) :
    bottom bytes after last ≤ bottom bytes after later := by
  rw [bottom_eq, bottom_eq]
  omega

theorem read_of_exceeds (before : Int) (after : Nat) (beyond : (bytes.length : Int) < s.stop) :
    read bytes s before after = .error (.exceeds s bytes.length) :=
  if_pos beyond

/-- The opening of a span begins where the window does. -/
private theorem headD_leading {top : Opening} (opens : Progress.Opens bytes s before top) :
    ∃ line, (table bytes)[top.dropped]? = some line ∧
      top.leading.headD top.start = line.start := by
  obtain ⟨⟨dropped_eq, leading_eq⟩, line, found, _, start_eq⟩ := opens
  have inside := (List.getElem?_eq_some_iff.mp found).1
  by_cases none_kept : top.dropped = top.index
  · refine ⟨line, none_kept ▸ found, ?_⟩
    rw [leading_eq, none_kept, List.drop_of_length_le (List.length_take_le _ _)]
    exact start_eq
  · have dropped_inside : top.dropped < (table bytes).length := by omega
    refine ⟨(table bytes)[top.dropped], by simp, ?_⟩
    rw [leading_eq, List.headD_eq_head?_getD, List.head?_map, List.head?_drop,
      List.getElem?_take_of_lt (by omega), List.getElem?_eq_getElem dropped_inside]
    rfl

/-- Reading a span within the source succeeds with what the lines dictate. -/
theorem read_dictated (inside : s.Inside bytes) (before after : Nat) :
    ∃ c first last, read bytes s before after = .ok c ∧
      Dictates bytes s before after first last c := by
  obtain ⟨top, last, stop, trailing, walked, opens, last_holds, rfl, taken⟩ :=
    Progress.walk_table inside before after
  obtain ⟨line, found, holds, start_eq⟩ := opens.holds
  obtain ⟨head, head_found, head_eq⟩ := headD_leading opens
  have not_beyond : ¬(bytes.length : Int) < s.stop := Int.not_lt.mpr inside.stop
  have dropped_eq := opens.kept.dropped_eq
  rw [read, if_neg not_beyond, Int.toNat_natCast, walked]
  have line_eq : (if (before : Int) = 0 then top.index else top.dropped) =
      top.index - min before top.index := by
    split <;> omega
  have ordered : top.index ≤ last := by
    obtain ⟨last_line, last_found, last_line_holds⟩ := last_holds
    exact Extent.index_le_of_holds found holds last_found last_line_holds (offset_le_lastByte s)
  refine ⟨_, top.index, last, rfl, ⟨line, found, holds⟩, last_holds, line_eq, ?_, ?_, ?_, ?_, rfl⟩
  · dsimp only
    rw [bottom_eq]
    omega
  · rw [bottom_eq]
    exact taken
  · intro some_before
    have nonzero : (before : Int) ≠ 0 := by omega
    simp only [if_neg nonzero]
    exact ⟨rfl, head, head_found, by rw [head_eq]⟩
  · intro none_before
    have zero : (before : Int) = 0 := by omega
    simp only [if_pos zero]
    exact ⟨trivial, line, found, by rw [start_eq]⟩

theorem Dictates.lineAt_offset (dictates : Dictates bytes s before after first last c) :
    lineAt bytes s.offset.toNat = first := by
  obtain ⟨line, found, holds⟩ := dictates.first_holds
  exact Extent.lineAt_toNat_of_holds found holds

theorem Dictates.lineAt_lastByte (dictates : Dictates bytes s before after first last c) :
    lineAt bytes (lastByte s).toNat = last := by
  obtain ⟨line, found, holds⟩ := dictates.last_holds
  exact Extent.lineAt_toNat_of_holds found holds

/-- The lines of a window begin no later than they end. -/
theorem Dictates.line_le_bottom (dictates : Dictates bytes s before after first last c) :
    c.line ≤ bottom bytes after last := by
  have ordered : first ≤ last := by
    rw [← dictates.lineAt_offset, ← dictates.lineAt_lastByte]
    exact Extent.lineAt_mono (Int.toNat_le_toNat (offset_le_lastByte s))
  have line_eq := dictates.line_eq
  rw [bottom_eq]
  omega

theorem Dictates.start_nonneg (dictates : Dictates bytes s before after first last c) :
    0 ≤ c.start := by
  by_cases some_before : 0 < before
  · obtain ⟨line, -, start_eq⟩ := (dictates.start_of_lines some_before).2
    omega
  · obtain ⟨line, -, holds⟩ := dictates.first_holds
    rw [(dictates.start_of_span (by omega)).1]
    exact holds.nonneg

/-- A window covers the span that it was read for. -/
theorem Dictates.covers (dictates : Dictates bytes s before after first last c)
    (inside : s.Inside bytes) : c.start ≤ s.offset ∧ s.stop ≤ c.stop := by
  have length := inside.length
  have line_eq := dictates.line_eq
  obtain ⟨first_line, first_found, first_holds⟩ := dictates.first_holds
  obtain ⟨last_line, last_found, last_holds⟩ := dictates.last_holds
  obtain ⟨bottom_line, bottom_found, stop_eq⟩ := dictates.stop_eq
  constructor
  · by_cases some_before : 0 < before
    · obtain ⟨line, found, start_eq⟩ := (dictates.start_of_lines some_before).2
      have le := Extent.start_le_start found first_found (by omega)
      have first_le := first_holds.1
      omega
    · exact Int.le_of_eq (dictates.start_of_span (by omega)).1
  · have le : last_line.stop ≤ bottom_line.stop :=
      Extent.stop_le_stop last_found bottom_found (Nat.le_add_right _ _)
    have last_le : s.stop ≤ last_line.stop := by
      have stop_le := inside.stop
      have span_stop := Span.stop_eq s
      rw [lastByte_eq] at last_holds
      have held := last_holds.2
      simp only [Coordinate.Same] at held
      have ended := (Extent.cuts_table bytes).of_unterminated last_found
      split at held <;> omega
    omega

theorem dictates_of_read (inside : s.Inside bytes)
    (succeeded : read bytes s before after = .ok c) :
    ∃ first last, Dictates bytes s before after first last c := by
  obtain ⟨c', first, last, succeeded', dictates⟩ := read_dictated inside before after
  rw [succeeded] at succeeded'
  cases succeeded'
  exact ⟨first, last, dictates⟩

/-- What the lines of a source dictate is one thing. -/
theorem Dictates.unique {first' last' : Nat} {d : Contents Int}
    (dictates : Dictates bytes s before after first last c)
    (dictates' : Dictates bytes s before after first' last' d) : c = d := by
  have first_eq : first = first' := by rw [← dictates.lineAt_offset, dictates'.lineAt_offset]
  have last_eq : last = last' := by rw [← dictates.lineAt_lastByte, dictates'.lineAt_lastByte]
  subst first_eq last_eq
  have line_eq : c.line = d.line := by rw [dictates.line_eq, dictates'.line_eq]
  have lineCount_eq : c.lineCount = d.lineCount := by
    rw [dictates.lineCount_eq, dictates'.lineCount_eq, line_eq]
  have stop_eq : c.stop = d.stop := by
    obtain ⟨line, found, c_eq⟩ := dictates.stop_eq
    obtain ⟨line', found', d_eq⟩ := dictates'.stop_eq
    cases found.symm.trans found'
    rw [c_eq, d_eq]
  have start_eq : c.start = d.start ∧ c.column = d.column := by
    by_cases some_before : 0 < before
    · obtain ⟨c_column, line, found, c_eq⟩ := dictates.start_of_lines some_before
      obtain ⟨d_column, line', found', d_eq⟩ := dictates'.start_of_lines some_before
      rw [line_eq] at found
      cases found.symm.trans found'
      exact ⟨c_eq.trans d_eq.symm, c_column.trans d_column.symm⟩
    · obtain ⟨c_eq, line, found, c_column⟩ := dictates.start_of_span (by omega)
      obtain ⟨d_eq, line', found', d_column⟩ := dictates'.start_of_span (by omega)
      cases found.symm.trans found'
      exact ⟨c_eq.trans d_eq.symm, c_column.trans d_column.symm⟩
  have data_eq : c.data = d.data := by
    rw [dictates.data_eq, dictates'.data_eq, start_eq.1, stop_eq]
  cases c
  cases d
  rw [Contents.mk.injEq]
  exact ⟨data_eq, start_eq.1, stop_eq, line_eq, start_eq.2, lineCount_eq⟩

theorem read_eq_of_dictates (inside : s.Inside bytes)
    (dictates : Dictates bytes s before after first last c) :
    read bytes s before after = .ok c := by
  obtain ⟨d, first', last', succeeded, dictates'⟩ := read_dictated inside before after
  rw [succeeded, dictates'.unique dictates]

/-- A line is dictated by the beginning of the span alone, and the line behind the last one by its
last byte alone. -/
theorem line_reach_of_read (inside : s.Inside bytes)
    (succeeded : read bytes s before after = .ok c) :
    c.line = lineAt bytes s.offset.toNat - before ∧
      c.reach = bottom bytes after (lineAt bytes (lastByte s).toNat) + 1 := by
  obtain ⟨first, last, dictates⟩ := dictates_of_read inside succeeded
  have line_le := dictates.line_le_bottom
  have line_eq := dictates.line_eq
  have lineCount_eq := dictates.lineCount_eq
  rw [dictates.lineAt_offset, dictates.lineAt_lastByte, reach]
  omega

/-- The only way in which reading a span of byte counts fails. -/
theorem read_eq_error_iff (offset : 0 ≤ s.offset) (length : 0 ≤ s.length) (before after : Nat)
    (e : SpanError Int) :
    read bytes s before after = .error e ↔
      (bytes.length : Int) < s.stop ∧ e = .exceeds s bytes.length := by
  by_cases beyond : (bytes.length : Int) < s.stop
  · rw [read_of_exceeds before after beyond]
    simp [beyond, eq_comm]
  · obtain ⟨c, _, _, succeeded, _⟩ :=
      read_dictated ⟨offset, length, Int.not_lt.mp beyond⟩ before after
    rw [succeeded]
    simp [beyond]

theorem stop_le_of_read {s : Span Int} {before : Int} {c : Contents Int}
    (succeeded : read bytes s before after = .ok c) : s.stop ≤ bytes.length := by
  refine Int.not_lt.mp fun beyond => ?_
  rw [read, if_pos beyond] at succeeded
  cases succeeded

theorem exists_read {s : Span Int} (inside : s.Inside bytes) (before after : Nat) :
    ∃ c, read bytes s before after = .ok c := by
  obtain ⟨c, _, _, succeeded, _⟩ := read_dictated inside before after
  exact ⟨c, succeeded⟩

/-- A position is located on its line. -/
theorem exists_locate_eq {position : Int} (nonneg : 0 ≤ position)
    (inside : position ≤ bytes.length) :
    ∃ column, locate bytes position = .ok (lineAt bytes position.toNat, column) := by
  have point : (⟨position, ((0 : Nat) : Int)⟩ : Span Int).Inside bytes :=
    ⟨nonneg, Int.le_refl _, by simpa [Span.stop_eq] using inside⟩
  obtain ⟨c, succeeded⟩ := exists_read point 0 0
  have line_eq := (line_reach_of_read point succeeded).1
  refine ⟨c.column, ?_⟩
  rw [locate]
  exact (congrArg (Except.map _) succeeded).trans (by rw [Except.map, line_eq, Nat.sub_zero])

theorem exists_locate {position : Int} (nonneg : 0 ≤ position)
    (inside : position ≤ bytes.length) : ∃ place, locate bytes position = .ok place := by
  obtain ⟨column, located⟩ := exists_locate_eq nonneg inside
  exact ⟨_, located⟩

/-- Reading fails, as out of bounds and on account of its span, exactly if the span ends behind the
source, and it never fails to locate a span.  Else it gives what the lines of the source dictate,
and these are the lines that are found one by one. -/
theorem read_follows_lines (bytes : List UInt8) (s : Span Int) (before after : Nat)
    (offset : 0 ≤ s.offset) (length : 0 ≤ s.length) :
    Extent.Cuts bytes 0 (table bytes) ∧
      (∀ line ∈ table bytes, Extent.ofStart bytes line.start = line) ∧
      ((∃ e, read bytes s before after = .error e ∧ e.code = "OutOfBounds" ∧ e.span = s) ↔
        (bytes.length : Int) < s.stop) ∧
      (∀ other, read bytes s before after ≠ .error (.unlocated other)) ∧
      (s.stop ≤ bytes.length → ∃ c first last,
        read bytes s before after = .ok c ∧ Dictates bytes s before after first last c) := by
  have cuts := Extent.cuts_table bytes
  have failed_iff (e : SpanError Int) : read bytes s before after = .error e ↔
      (bytes.length : Int) < s.stop ∧ e = .exceeds s bytes.length :=
    read_eq_error_iff offset length before after e
  refine ⟨cuts, cuts.ofStart_eq (Nat.zero_le _), ?_, ?_, ?_⟩
  · constructor
    · rintro ⟨e, failed, -, -⟩
      exact ((failed_iff e).mp failed).1
    · intro beyond
      exact ⟨_, (failed_iff _).mpr ⟨beyond, rfl⟩, rfl, rfl⟩
  · intro other failed
    have := ((failed_iff _).mp failed).2
    contradiction
  · intro stop
    exact read_dictated ⟨offset, length, stop⟩ before after

/-- The lines `a\r\n`, `b\rc\n` and an empty one, read for a span from within the first terminator
up to the middle of the second line. -/
theorem read_follows_lines_across_terminator :
    (0 : Int) ≤ 2 ∧ (0 : Int) ≤ 3 ∧
      ∃ c first last,
        read [0x61, 0x0D, 0x0A, 0x62, 0x0D, 0x63, 0x0A] (⟨2, 3⟩ : Span Int) 1 2 = .ok c ∧
          Dictates [0x61, 0x0D, 0x0A, 0x62, 0x0D, 0x63, 0x0A] ⟨2, 3⟩ 1 2 first last c :=
  ⟨by decide, by decide,
    (read_follows_lines [0x61, 0x0D, 0x0A, 0x62, 0x0D, 0x63, 0x0A] ⟨2, 3⟩ 1 2
      (by decide) (by decide)).2.2.2.2 (by decide)⟩

example :
    read [0x61, 0x0D, 0x0A, 0x62, 0x0D, 0x63, 0x0A] (⟨2, 3⟩ : Span Int) 1 2 =
      .ok ⟨[0x61, 0x0D, 0x0A, 0x62, 0x0D, 0x63, 0x0A], 0, 7, 0, 0, 2⟩ :=
  rfl

end Contents

end Marginalia
