import Marginalia.Proofs.Source.Whole
import Marginalia.Proofs.Text.Decoding
import Marginalia.Source.Line

/-!
# Scanned lines

Where a window begins and ends with whole lines, cutting its decoded text behind every line feed
finds the lines of the source again: the pieces are the texts of the lines that have bytes, one by
one, but for a byte-order mark in front of the first.  So the lines of the window are numbered as in
the source, and there are no more of them than were read.
-/

namespace Marginalia

open Extent (Cuts table lineFeed)
open Contents (slice)

variable {bytes : List UInt8}

/-! ## Slices -/

namespace Contents

theorem slice_append {start middle stop : Nat} (le : start ≤ middle) (le' : middle ≤ stop) :
    slice bytes start stop = slice bytes start middle ++ slice bytes middle stop := by
  have length_eq : stop - start = (middle - start) + (stop - middle) := by omega
  rw [slice, length_eq, List.take_add, List.drop_drop, Nat.add_sub_cancel' le]
  rfl

theorem slice_of_ended {start feed : Nat} (begun : start ≤ feed)
    (ended : bytes[feed]? = some lineFeed) :
    slice bytes start (feed + 1) = slice bytes start feed ++ [lineFeed] := by
  rw [slice, Nat.succ_sub begun, List.take_add_one, List.getElem?_drop,
    Nat.add_sub_cancel' begun, ended]
  rfl

theorem feed_not_mem_slice {start stop : Nat}
    (content : ∀ i, start ≤ i → i < stop → bytes[i]? ≠ some lineFeed) :
    lineFeed ∉ slice bytes start stop := by
  intro member
  obtain ⟨i, inside, eq⟩ := List.mem_iff_getElem.mp member
  rw [slice, List.length_take] at inside
  refine content (start + i) (Nat.le_add_right _ _) (by omega) ?_
  simp only [slice, List.getElem_take, List.getElem_drop] at eq
  rw [← eq]
  exact List.getElem?_eq_getElem _

end Contents

/-! ## Pieces -/

namespace Line

theorem pieces_append_feed {text : List Char} (absent : '\n' ∉ text) (rest : List Char) :
    pieces (text ++ '\n' :: rest) = (text ++ ['\n']) :: pieces rest := by
  induction text with
  | nil => rfl
  | cons c text ih =>
    rw [List.mem_cons, not_or] at absent
    rw [List.cons_append, pieces, if_neg (Ne.symm absent.1), ih absent.2]
    rfl

theorem pieces_of_feed_not_mem {text : List Char} (absent : '\n' ∉ text) (nonempty : text ≠ []) :
    pieces text = [text] := by
  induction text with
  | nil => contradiction
  | cons c text ih =>
    rw [List.mem_cons, not_or] at absent
    rw [pieces, if_neg (Ne.symm absent.1)]
    cases text with
    | nil => rfl
    | cons d text => rw [ih absent.2 (List.cons_ne_nil _ _)]

/-- A byte-order mark is lost from the first piece alone. -/
theorem getElem?_pieces_withoutMark {text piece : List Char} {i : Nat}
    (found : (pieces (Utf8.withoutMark text))[i]? = some piece) :
    ∃ whole, (pieces text)[i]? = some whole ∧
      (piece = whole ∨ piece = Utf8.withoutMark whole) := by
  cases text with
  | nil => exact ⟨piece, found, .inl rfl⟩
  | cons c text =>
    rw [Utf8.withoutMark] at found
    split at found
    · rename_i marked
      have mark_ne : c ≠ '\n' := by
        rw [marked]
        decide
      rw [pieces, if_neg mark_ne]
      cases cut : pieces text with
      | nil => simp [cut] at found
      | cons first others =>
        rw [cut] at found
        cases i with
        | zero =>
          cases found
          exact ⟨c :: piece, rfl, .inr (by simp [Utf8.withoutMark, marked])⟩
        | succ i => exact ⟨piece, found, .inl rfl⟩
    · exact ⟨piece, found, .inl rfl⟩

end Line

/-! ## The text of the lines of a source -/

namespace Extent

/-- The text of a line. -/
def text (bytes : List UInt8) (line : Extent) : List Char :=
  Utf8.decodeFrom none (slice bytes line.start line.stop)

theorem Cuts.drop {start i : Nat} {lines : List Extent} {line : Extent}
    (cuts : Cuts bytes start lines) (found : lines[i]? = some line) :
    Cuts bytes line.start (lines.drop i) := by
  induction cuts generalizing i with
  | last bounded content =>
    cases i with
    | zero =>
      cases found
      exact .last bounded content
    | succ i => simp at found
  | line begun content ended behind ih =>
    cases i with
    | zero =>
      cases found
      exact .line begun content ended behind
    | succ i => exact ih found

/-- The bytes from the beginning of one line to the end of another are cut into the texts of the
lines from the one to the other that have bytes. -/
theorem Cuts.pieces_decodeFrom {start k : Nat} {lines : List Extent} {line : Extent}
    (cuts : Cuts bytes start lines) (found : lines[k]? = some line) :
    Line.pieces (Utf8.decodeFrom none (slice bytes start line.stop)) =
      (lines.take (min (k + 1) (lines.countP (!·.isEmpty)))).map (text bytes) := by
  have fresh : ∀ p ∈ (none : Option Utf8.Pending), p.Wide := by simp
  induction cuts generalizing k with
  | @last start bounded content =>
    cases k with
    | succ k => simp at found
    | zero =>
      cases found
      by_cases ended : bytes.length ≤ start
      · have slice_eq : slice bytes start bytes.length = [] := by
          rw [slice, Nat.sub_eq_zero_of_le ended, List.take_zero]
        simp [slice_eq, Utf8.decodeFrom, Line.pieces, isEmpty, ended]
      · have slice_ne : slice bytes start bytes.length ≠ [] := by
          intro empty
          have := congrArg List.length empty
          simp [slice] at this
          omega
        have feedless : lineFeed ∉ slice bytes start bytes.length :=
          Contents.feed_not_mem_slice fun i le _ => content i le
        have absent := Utf8.feed_not_mem_decodeFrom fresh feedless
        rw [Line.pieces_of_feed_not_mem absent (Utf8.decodeFrom_ne_nil slice_ne)]
        simp [isEmpty, ended, text]
  | @line start feed rest begun content ended behind ih =>
    have bytes_eq := Contents.slice_of_ended begun ended
    obtain ⟨line_text, decoded, absent⟩ := Utf8.decodeFrom_line fresh
      (Contents.feed_not_mem_slice content)
    have text_eq : text bytes (endingAt bytes start feed) = line_text ++ ['\n'] := by
      rw [← decoded, ← bytes_eq]
      rfl
    have count_eq : (endingAt bytes start feed :: rest).countP (!·.isEmpty) =
        rest.countP (!·.isEmpty) + 1 := by
      rw [List.countP_cons_of_pos (by simp [isEmpty_endingAt bytes begun])]
    rw [count_eq, Nat.add_min_add_right, List.take_succ_cons, List.map_cons, text_eq]
    cases k with
    | zero =>
      cases found
      simp only [endingAt]
      rw [bytes_eq, decoded, Line.pieces_append_feed absent]
      simp [Line.pieces]
    | succ k =>
      have later := (behind.bounds line (List.mem_of_getElem? found)).1
      have stop_le := (behind.bounds line (List.mem_of_getElem? found)).2.1
      rw [Contents.slice_append (Nat.le_succ_of_le begun) (Nat.le_trans later stop_le), bytes_eq,
        List.append_assoc, List.singleton_append, Utf8.decodeFrom_append_feed fresh, decoded,
        List.append_assoc, List.singleton_append, Line.pieces_append_feed absent, ih found]

end Extent

/-! ## The lines of a window -/

namespace Line

/-- A line that stands for a line of the source: it has the number of that line and its text, as it
is or without a byte-order mark. -/
structure Shows (bytes : List UInt8) (line : Line Int) (i : Nat) : Prop where
  number_eq : line.number = i + 1
  text_eq : ∃ extent, (table bytes)[i]? = some extent ∧
    (line.text = extent.text bytes ∨ line.text = Utf8.withoutMark (extent.text bytes))

theorem map_number_place {κ : Type} [Coordinate κ] (size first : Nat) (offset : κ)
    (pieces : List (List Char)) :
    (place size first offset pieces).map number = List.range' first pieces.length := by
  induction pieces generalizing first offset with
  | nil => rfl
  | cons piece rest ih => rw [place, List.map_cons, ih, List.length_cons, List.range'_succ]

theorem getElem?_place {size first i : Nat} {offset : Int} {pieces : List (List Char)}
    {line : Line Int} (found : (place size first offset pieces)[i]? = some line) :
    line.number = first + i ∧ pieces[i]? = some line.text := by
  induction pieces generalizing first offset i with
  | nil => simp [place] at found
  | cons piece rest ih =>
    cases i with
    | zero =>
      cases found
      exact ⟨rfl, rfl⟩
    | succ i =>
      obtain ⟨number_eq, text_eq⟩ := ih found
      exact ⟨by omega, text_eq⟩

/-- The lines of a window are numbered one after the other. -/
theorem numbers_scan_ascending {κ : Type} [Coordinate κ] (c : Contents κ) (size : Nat) :
    ((scan c size).map number).Pairwise (· < ·) := by
  rw [scan, map_number_place]
  exact List.pairwise_lt_range'

/-- Scanning whole lines gives lines of the source that were read, and no others. -/
theorem scan_shows {c : Contents Int} (whole : c.Whole bytes) (size : Nat) :
    ∀ line ∈ scan c size, ∃ i, c.Touches i ∧ line.Shows bytes i := by
  obtain ⟨first, first_found, start_eq⟩ := whole.first
  obtain ⟨k, last, lineCount_eq, last_found, stop_eq⟩ := whole.last
  have cuts := (Extent.cuts_table bytes).drop first_found
  rw [← List.getElem?_drop] at last_found
  have cut := cuts.pieces_decodeFrom last_found
  rw [← stop_eq] at cut
  intro line member
  obtain ⟨i, found⟩ := List.getElem?_of_mem member
  obtain ⟨number_eq, piece_found⟩ := getElem?_place found
  rw [Utf8.decode, whole.data_eq, start_eq, Int.toNat_natCast] at piece_found
  obtain ⟨text, text_found, text_eq⟩ := getElem?_pieces_withoutMark piece_found
  rw [cut, List.getElem?_map, List.getElem?_take] at text_found
  split at text_found
  · rename_i shown
    rw [List.getElem?_drop] at text_found
    obtain ⟨extent, extent_found, rfl⟩ := Option.map_eq_some_iff.mp text_found
    refine ⟨c.line + i, ⟨Nat.le_add_right _ _, by omega⟩, ?_, extent, extent_found, text_eq⟩
    omega
  · cases text_found

end Line

end Marginalia
