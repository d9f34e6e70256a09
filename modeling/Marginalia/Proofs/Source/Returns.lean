import Marginalia.Proofs.Source.Reading
import Marginalia.Proofs.Span.Moved

/-!
# Carriage returns in front of line feeds

A carriage return put in front of every line feed moves each place by the line feeds in front of it.
The lines of the source are moved with their terminators grown to two bytes, so a span that is moved
touches the same lines, and what is read for it is what was read before with the returns put in.
-/

namespace Marginalia

open Extent (table lineAt lineFeed carriageReturn)
open Contents (slice lastByte)

namespace Returns

/-- Bytes with a carriage return in front of every line feed. -/
def ofBytes (bytes : List UInt8) : List UInt8 :=
  bytes.flatMap fun b => if b = lineFeed then [carriageReturn, lineFeed] else [b]

/-- Where a byte is behind the returns. -/
def shift (bytes : List UInt8) (n : Nat) : Nat := n + lineAt bytes n

/-- The returns move every place of a source by the line feeds in front of it. -/
def motion (bytes : List UInt8) : Motion where
  place position := position + lineAt bytes position.toNat
  ordered x y lt := by
    have : lineAt bytes x.toNat ≤ lineAt bytes y.toNat :=
      Extent.lineAt_mono (Int.toNat_le_toNat (Int.le_of_lt lt))
    omega

variable {bytes : List UInt8}

theorem place_natCast (bytes : List UInt8) (n : Nat) : (motion bytes).place n = shift bytes n := by
  simp [motion, shift]

theorem shift_zero (bytes : List UInt8) : shift bytes 0 = 0 := by simp [shift, lineAt]

theorem shift_lt_iff {n k : Nat} : shift bytes n < shift bytes k ↔ n < k := by
  have := (motion bytes).place_lt_iff (x := n) (y := k)
  rw [place_natCast, place_natCast] at this
  omega

theorem shift_le_iff {n k : Nat} : shift bytes n ≤ shift bytes k ↔ n ≤ k := by
  rw [← Nat.not_lt, shift_lt_iff, Nat.not_lt]

theorem place_nonneg {position : Int} (nonneg : 0 ≤ position) :
    0 ≤ (motion bytes).place position := by
  rw [motion]
  dsimp only
  omega

/-! ## Bytes -/

theorem ofBytes_append (front back : List UInt8) :
    ofBytes (front ++ back) = ofBytes front ++ ofBytes back :=
  List.flatMap_append

theorem length_ofBytes (bytes : List UInt8) :
    (ofBytes bytes).length = bytes.length + bytes.count lineFeed := by
  induction bytes with
  | nil => rfl
  | cons b bytes ih =>
    have step : ofBytes (b :: bytes) = ofBytes [b] ++ ofBytes bytes := ofBytes_append [b] bytes
    rw [step, List.length_append, ih, List.length_cons, List.count_cons]
    by_cases feed : b = lineFeed
    · simp [ofBytes, feed]
      omega
    · simp [ofBytes, feed]
      omega

theorem getLast?_ofBytes (bytes : List UInt8) : (ofBytes bytes).getLast? = bytes.getLast? := by
  rcases List.eq_nil_or_concat bytes with rfl | ⟨front, b, rfl⟩
  · rfl
  · rw [List.concat_eq_append, ofBytes_append, List.getLast?_append, List.getLast?_append]
    by_cases feed : b = lineFeed <;> simp [ofBytes, feed]

theorem length_ofBytes_take {n : Nat} (bounded : n ≤ bytes.length) :
    (ofBytes (bytes.take n)).length = shift bytes n := by
  rw [length_ofBytes, List.length_take_of_le bounded]
  rfl

theorem length_ofBytes_eq_shift (bytes : List UInt8) :
    (ofBytes bytes).length = shift bytes bytes.length := by
  rw [← length_ofBytes_take (Nat.le_refl _), List.take_length]

theorem slice_ofBytes {start stop : Nat} (le : start ≤ stop) (bounded : stop ≤ bytes.length) :
    slice (ofBytes bytes) (shift bytes start) (shift bytes stop) =
      ofBytes (slice bytes start stop) := by
  have front_eq : (ofBytes (bytes.take start)).length = shift bytes start :=
    length_ofBytes_take (Nat.le_trans le bounded)
  have parts : bytes.take stop = bytes.take start ++ slice bytes start stop := by
    rw [slice, ← List.take_add, Nat.add_sub_cancel' le]
  have whole_eq := length_ofBytes_take bounded
  rw [parts, ofBytes_append, List.length_append, front_eq] at whole_eq
  have split : ofBytes bytes = ofBytes (bytes.take start) ++
      (ofBytes (slice bytes start stop) ++ ofBytes (bytes.drop stop)) := by
    rw [← List.append_assoc, ← ofBytes_append, ← parts, ← ofBytes_append, List.take_append_drop]
  rw [split, slice, ← front_eq, List.drop_left, ← whole_eq, front_eq, Nat.add_sub_cancel_left,
    List.take_left]

/-! ## Lines -/

theorem shift_succ {position : Nat} {b : UInt8} (here : bytes[position]? = some b) :
    shift bytes (position + 1) = shift bytes position + (ofBytes [b]).length := by
  rw [shift, shift, Extent.lineAt_succ, here]
  by_cases feed : b = lineFeed
  · simp [ofBytes, feed]
    omega
  · simp [ofBytes, feed]
    omega

end Returns

open Returns

/-- A line with a carriage return in its terminator, if it has one. -/
def Extent.withReturns (bytes : List UInt8) (line : Extent) : Extent :=
  ⟨shift bytes line.start, shift bytes line.stop, if line.terminator = 0 then 0 else 2⟩

namespace Extent

variable {bytes : List UInt8} {line : Extent}

theorem withReturns_terminated (start stop : Nat) (returned : Bool) :
    withReturns bytes ⟨start, stop, if returned then 2 else 1⟩ =
      ⟨shift bytes start, shift bytes stop, 2⟩ := by
  cases returned <;> rfl

private theorem tableFrom_ofBytes (rest : List UInt8) (start position : Nat)
    (returned returned' : Bool) (unread : bytes.drop position = rest) :
    tableFrom (shift bytes start) (shift bytes position) returned' (ofBytes rest) =
      (tableFrom start position returned rest).map (withReturns bytes) := by
  -- whether a return was read before does not matter behind the returns: each feed has its own
  induction rest generalizing start position returned returned' with
  | nil => rfl
  | cons b rest ih =>
    have here : bytes[position]? = some b := by
      have := congrArg (·[0]?) unread
      simpa using this
    have next : bytes.drop (position + 1) = rest := by
      rw [← List.drop_drop, unread]
      rfl
    have moved := shift_succ here
    by_cases feed : b = lineFeed
    · subst feed
      have moved : shift bytes (position + 1) = shift bytes position + 2 := moved
      have behind := ih (position + 1) (position + 1) false false next
      rw [moved] at behind
      show tableFrom _ _ _ (carriageReturn :: lineFeed :: ofBytes rest) = _
      rw [tableFrom, if_neg (by decide), tableFrom, if_pos rfl, tableFrom, if_pos rfl,
        List.map_cons, behind, withReturns_terminated, moved]
      rfl
    · have single : ofBytes (b :: rest) = b :: ofBytes rest := by simp [ofBytes, feed]
      have moved : shift bytes (position + 1) = shift bytes position + 1 := by
        simpa [ofBytes, feed] using moved
      rw [single, tableFrom, if_neg feed, tableFrom, if_neg feed, ← moved]
      exact ih start (position + 1) _ _ next

theorem table_ofBytes (bytes : List UInt8) :
    table (ofBytes bytes) = (table bytes).map (withReturns bytes) := by
  have moved : tableFrom (shift bytes 0) (shift bytes 0) false (ofBytes bytes) =
      (table bytes).map (withReturns bytes) := tableFrom_ofBytes bytes 0 0 false false rfl
  rwa [shift_zero] at moved

theorem getElem?_table_ofBytes {i : Nat} (found : (table bytes)[i]? = some line) :
    (table (ofBytes bytes))[i]? = some (line.withReturns bytes) := by
  rw [table_ofBytes, List.getElem?_map, found]
  rfl

theorem isEmpty_withReturns (line : Extent) : (line.withReturns bytes).isEmpty = line.isEmpty := by
  simp only [isEmpty, withReturns, shift_le_iff]

theorem terminator_withReturns : (line.withReturns bytes).terminator = 0 ↔ line.terminator = 0 := by
  simp only [withReturns]
  split <;> omega

theorem holds_withReturns_iff {position : Int} :
    (line.withReturns bytes).Holds ((motion bytes).place position) ↔ line.Holds position := by
  have start_le := (motion bytes).place_le_iff (x := line.start) (y := position)
  have lt_stop := (motion bytes).place_lt_iff (x := position) (y := line.stop)
  have eq_stop := (motion bytes).place_eq_iff (x := position) (y := line.stop)
  have terminator_iff : (line.withReturns bytes).terminator = 0 ↔ line.terminator = 0 :=
    terminator_withReturns
  rw [place_natCast] at start_le lt_stop eq_stop
  simp only [Holds, Coordinate.Same, terminator_iff]
  simp only [withReturns]
  omega

/-- On one line no place is moved farther than another. -/
theorem Holds.place_sub {i : Nat} {position other : Int} (found : (table bytes)[i]? = some line)
    (holds : line.Holds position) (holds' : line.Holds other) :
    (motion bytes).place position - (motion bytes).place other = position - other := by
  simp only [motion, lineAt_toNat_of_holds found holds, lineAt_toNat_of_holds found holds']
  omega

end Extent

/-! ## What is read -/

/-- What is read once the returns are put in. -/
def Contents.withReturns (bytes : List UInt8) (c : Contents Int) : Contents Int where
  data := ofBytes c.data
  start := (motion bytes).place c.start
  stop := shift bytes c.stop
  line := c.line
  column := c.column
  lineCount := c.lineCount

namespace Contents

variable {bytes : List UInt8} {s : Span Int} {before after first last : Nat} {c : Contents Int}

theorem bottom_ofBytes (bytes : List UInt8) (after last : Nat) :
    bottom (ofBytes bytes) after last = bottom bytes after last := by
  have same : (fun line => !line.isEmpty) ∘ Extent.withReturns bytes = (!·.isEmpty) :=
    funext fun line => congrArg (!·) (Extent.isEmpty_withReturns line)
  rw [bottom, bottom, Extent.table_ofBytes, ← List.map_drop, List.countP_map, same]

theorem inside_moved (inside : s.Inside bytes) :
    (s.moved (motion bytes)).Inside (ofBytes bytes) := by
  have stop_le := (motion bytes).place_le_iff.mpr inside.stop
  have ordered := (motion bytes).place_le_iff (x := s.offset) (y := s.stop)
  have length := inside.length
  have stop_eq := s.stop_eq
  refine ⟨place_nonneg inside.offset, ?_, ?_⟩
  · rw [Span.length_moved]
    omega
  · rwa [Span.stop_moved, length_ofBytes_eq_shift, ← place_natCast]

/-- The line of the last byte of a span is that of the last byte of the moved span, which may be
another byte of its terminator. -/
theorem holds_lastByte_moved {line : Extent} {i : Nat} (inside : s.Inside bytes)
    (found : (table bytes)[i]? = some line) (holds : line.Holds (lastByte s)) :
    (line.withReturns bytes).Holds (lastByte (s.moved (motion bytes))) := by
  rw [lastByte_eq] at holds ⊢
  simp only [Span.length_moved_pos_iff]
  split
  · rename_i length
    -- behind a moved feed the last byte is the feed, in front of which now stands a return, so it
    -- is placed by the end of the span and not by where the old last byte goes
    rw [if_pos length] at holds
    have start_lt := (motion bytes).place_lt_iff (x := line.start) (y := s.stop)
    have le_stop := (motion bytes).place_le_iff (x := s.stop) (y := line.stop)
    have ended := (Extent.cuts_table bytes).of_unterminated found
    have stop_le := inside.stop
    rw [place_natCast] at start_lt le_stop
    rw [Span.stop_moved]
    simp only [Extent.Holds, Coordinate.Same, Extent.withReturns] at holds ⊢
    omega
  · rename_i point
    rw [if_neg point] at holds
    exact Extent.holds_withReturns_iff.mpr holds

/-- What the lines dictate for a span they dictate for the moved span. -/
theorem Dictates.withReturns (dictates : Dictates bytes s before after first last c)
    (inside : s.Inside bytes) :
    Dictates (ofBytes bytes) (s.moved (motion bytes)) before after first last
      (c.withReturns bytes) := by
  obtain ⟨start_le, le_stop⟩ := dictates.covers inside
  refine ⟨?_, ?_, dictates.line_eq, ?_, ?_, ?_, ?_, ?_⟩
  · obtain ⟨line, found, holds⟩ := dictates.first_holds
    exact ⟨_, Extent.getElem?_table_ofBytes found, Extent.holds_withReturns_iff.mpr holds⟩
  · obtain ⟨line, found, holds⟩ := dictates.last_holds
    exact ⟨_, Extent.getElem?_table_ofBytes found, holds_lastByte_moved inside found holds⟩
  · rw [bottom_ofBytes]
    exact dictates.lineCount_eq
  · obtain ⟨line, found, stop_eq⟩ := dictates.stop_eq
    rw [bottom_ofBytes]
    exact ⟨_, Extent.getElem?_table_ofBytes found, congrArg (shift bytes) stop_eq⟩
  · intro some_before
    obtain ⟨column_eq, line, found, start_eq⟩ := dictates.start_of_lines some_before
    refine ⟨column_eq, _, Extent.getElem?_table_ofBytes found, ?_⟩
    rw [Contents.withReturns, start_eq]
    exact place_natCast bytes line.start
  · intro none_before
    obtain ⟨start_eq, line, found, column_eq⟩ := dictates.start_of_span none_before
    refine ⟨congrArg (motion bytes).place start_eq, _, Extent.getElem?_table_ofBytes found, ?_⟩
    have start_holds := (Extent.cuts_table bytes).holds_start line (List.mem_of_getElem? found)
    obtain ⟨first_line, first_found, first_holds⟩ := dictates.first_holds
    cases found.symm.trans first_found
    have unmoved := Extent.Holds.place_sub found first_holds start_holds
    rw [place_natCast] at unmoved
    exact column_eq.trans unmoved.symm
  · have start_nonneg := dictates.start_nonneg
    have start_eq : ((motion bytes).place c.start).toNat = shift bytes c.start.toNat := by
      rw [← Int.toNat_of_nonneg start_nonneg, place_natCast, Int.toNat_natCast, Int.toNat_natCast]
    have ordered : c.start.toNat ≤ c.stop := by
      have length := inside.length
      have stop_eq := s.stop_eq
      omega
    obtain ⟨line, found, stop_eq⟩ := dictates.stop_eq
    have bounds := (Extent.cuts_table bytes).bounds line (List.mem_of_getElem? found)
    rw [← stop_eq] at bounds
    have data_eq := slice_ofBytes ordered bounds.2.2
    rw [← dictates.data_eq, ← start_eq] at data_eq
    exact data_eq.symm

theorem read_withReturns (inside : s.Inside bytes) (succeeded : read bytes s before after = .ok c) :
    read (ofBytes bytes) (s.moved (motion bytes)) before after = .ok (c.withReturns bytes) := by
  obtain ⟨first, last, dictates⟩ := dictates_of_read inside succeeded
  exact read_eq_of_dictates (inside_moved inside) (dictates.withReturns inside)

/-- A position is located where it was. -/
theorem locate_withReturns {position : Int} {found : Nat × Int} (nonneg : 0 ≤ position)
    (bounded : position ≤ bytes.length) (located : locate bytes position = .ok found) :
    locate (ofBytes bytes) ((motion bytes).place position) = .ok found := by
  have inside : (⟨position, ((0 : Nat) : Int)⟩ : Span Int).Inside bytes :=
    ⟨nonneg, Int.le_refl _, by simpa [Span.stop_eq] using bounded⟩
  obtain ⟨c, succeeded⟩ := exists_read inside 0 0
  have moved := read_withReturns inside succeeded
  rw [Span.moved_point] at moved
  have found_eq : locate bytes position = .ok (c.line, c.column) :=
    congrArg (Except.map _) succeeded
  rw [← located, found_eq]
  exact congrArg (Except.map _) moved

end Contents

end Marginalia
