import Marginalia.Proofs.Source.Chain
import Marginalia.Proofs.Source.Scanning

/-!
# Lines of well-formed text

Where a source is well-formed text and a window begins between two of its characters, the places of
scanned lines do not drift: line by line they are the lines of the source, the first one cut off
where the window begins.  The last line that a window touches is missing only if the window holds no
byte of it.
-/

namespace Marginalia

open Extent (Cuts table lineFeed)
open Contents (slice)

variable {bytes : List UInt8}

/-! ## Lines cut off in front -/

namespace Extent

/-- A line of which a window that begins at `start` has only the rest. -/
def cutAt (line : Extent) (start : Nat) : Extent := { line with start := max start line.start }

/-- A source can be cut from any place on its first line. -/
theorem Cuts.cut_off {start place : Nat} {line : Extent} {rest : List Extent}
    (cuts : Cuts bytes start (line :: rest)) (le : start ≤ place)
    (within : place < line.stop ∨ line.terminator = 0 ∧ place = line.stop) :
    ∃ terminator, (terminator = 0 ↔ line.terminator = 0) ∧
      Cuts bytes place (⟨place, line.stop, terminator⟩ :: rest) := by
  cases cuts with
  | last bounded content =>
    refine ⟨0, Iff.rfl, .last ?_ fun i begun => content i (Nat.le_trans le begun)⟩
    rcases within with lt | ⟨-, eq⟩
    · exact Nat.le_of_lt lt
    · exact Nat.le_of_eq eq
  | @line _ feed _ begun content ended behind =>
    have begun' : place ≤ feed := by
      rcases within with lt | ⟨unterminated, -⟩
      · exact Nat.le_of_lt_succ lt
      · exact absurd unterminated (terminator_endingAt bytes start feed)
    refine ⟨(endingAt bytes place feed).terminator, ?_, ?_⟩
    · exact iff_of_false (terminator_endingAt bytes place feed)
        (terminator_endingAt bytes start feed)
    · exact .line begun' (fun i le' => content i (Nat.le_trans le le')) ended behind

/-- The text from the beginning of a line up to the line feed that ends it. -/
theorem exists_text_of_line {start feed : Nat} {cs : List Char} (begun : start ≤ feed)
    (content : ∀ i, start ≤ i → i < feed → bytes[i]? ≠ some lineFeed)
    (ended : bytes[feed]? = some lineFeed) (encoded : bytes.drop start = Utf8.encode cs) :
    ∃ piece rest, cs = piece ++ '\n' :: rest ∧ '\n' ∉ piece ∧
      slice bytes start (feed + 1) = Utf8.encode (piece ++ ['\n']) ∧
      bytes.drop (feed + 1) = Utf8.encode rest := by
  have parts : bytes.drop start = slice bytes start feed ++ lineFeed :: bytes.drop (feed + 1) := by
    have whole := List.take_append_drop (feed + 1 - start) (bytes.drop start)
    rw [List.drop_drop, Nat.add_sub_cancel' (Nat.le_succ_of_le begun)] at whole
    rw [← whole, ← slice, Contents.slice_of_ended begun ended, List.append_assoc]
    rfl
  have absent := Contents.feed_not_mem_slice content
  obtain ⟨piece, rest, cs_eq, piece_eq, rest_eq⟩ :=
    Utf8.exists_text_of_feed (encoded.symm.trans parts) absent
  refine ⟨piece, rest, cs_eq, ?_, ?_, rest_eq.symm⟩
  · rwa [← piece_eq, Utf8.feed_mem_encode_iff] at absent
  · rw [Contents.slice_of_ended begun ended, Utf8.encode_append, piece_eq]
    rfl

/-- From one line to the end of another, well-formed text is a text. -/
theorem Cuts.exists_text {start k : Nat} {lines : List Extent} {line : Extent} {cs : List Char}
    (cuts : Cuts bytes start lines) (encoded : bytes.drop start = Utf8.encode cs)
    (found : lines[k]? = some line) :
    ∃ front back, cs = front ++ back ∧ slice bytes start line.stop = Utf8.encode front := by
  induction cuts generalizing k cs with
  | @last start bounded content =>
    cases k with
    | succ k => simp at found
    | zero =>
      cases found
      refine ⟨cs, [], (List.append_nil cs).symm, ?_⟩
      rw [slice, ← encoded, ← List.length_drop, List.take_length]
  | @line start feed rest begun content ended behind ih =>
    obtain ⟨piece, others, rfl, -, line_eq, behind_eq⟩ :=
      exists_text_of_line begun content ended encoded
    cases k with
    | zero =>
      cases found
      exact ⟨piece ++ ['\n'], others, by simp, line_eq⟩
    | succ k =>
      obtain ⟨front, back, rfl, front_eq⟩ := ih behind_eq found
      have bounds := behind.bounds line (List.mem_of_getElem? found)
      refine ⟨piece ++ '\n' :: front, back, by simp, ?_⟩
      rw [Contents.slice_append (Nat.le_succ_of_le begun) (Nat.le_trans bounds.1 bounds.2.1),
        line_eq, front_eq, ← Utf8.encode_append, List.append_assoc]
      rfl

/-- Well-formed text is cut between characters. -/
theorem Cuts.exists_text_behind {start : Nat} {lines : List Extent} {cs : List Char}
    (cuts : Cuts bytes start lines) (encoded : bytes.drop start = Utf8.encode cs) :
    ∀ line ∈ lines, ∃ front back,
      cs = front ++ back ∧ bytes.drop line.start = Utf8.encode back := by
  induction cuts generalizing cs with
  | last =>
    intro line member
    cases List.mem_singleton.mp member
    exact ⟨[], cs, rfl, encoded⟩
  | line begun content ended behind ih =>
    obtain ⟨piece, others, rfl, -, -, behind_eq⟩ := exists_text_of_line begun content ended encoded
    intro line member
    rcases List.mem_cons.mp member with rfl | member
    · exact ⟨[], _, rfl, encoded⟩
    · obtain ⟨front, back, rfl, back_eq⟩ := ih behind_eq line member
      exact ⟨piece ++ '\n' :: front, back, by simp, back_eq⟩

end Extent

/-! ## Lines that are spelled by the source -/

namespace Line

/-- A line whose place and text are those of a line of the source. -/
structure Spells (bytes : List UInt8) (line : Line Int) (extent : Extent) : Prop where
  offset_eq : line.offset = extent.start
  stop_eq : line.stop = extent.stop
  bytes_eq : Utf8.encode line.text = slice bytes extent.start extent.stop
  atEnd_iff : line.atEnd = true ↔ extent.terminator = 0
  terminated_iff : isTerminated line.text = true ↔ extent.terminator ≠ 0

variable {extent : Extent} {text : List Char}

/-- The text of a line is passed from the beginning of the line to its end. -/
theorem pass_text (extent : Extent) (begun : extent.start ≤ extent.stop)
    (bounded : extent.stop ≤ bytes.length)
    (bytes_eq : slice bytes extent.start extent.stop = Utf8.encode text) :
    pass (extent.start : Int) text = extent.stop := by
  have length_eq := congrArg List.length bytes_eq
  rw [Utf8.length_encode, slice, List.length_take, List.length_drop] at length_eq
  rw [pass_eq]
  omega

/-- The line that is made of the text of a line of the source. -/
theorem spells_of_text (passed : pass (extent.start : Int) text = extent.stop)
    (bytes_eq : slice bytes extent.start extent.stop = Utf8.encode text)
    (ended : isTerminated text = true ↔ extent.terminator ≠ 0)
    (last : extent.terminator = 0 → extent.stop = bytes.length) (number : Nat)
    (content : List Char) :
    Spells bytes ⟨number, extent.start, pass (extent.start : Int) text - extent.start, text,
      content, !isTerminated text &&
        Coordinate.Same (pass (extent.start : Int) text) (bytes.length : Int)⟩ extent := by
  refine ⟨rfl, ?_, bytes_eq.symm, ?_, ended⟩
  · rw [stop, passed]
    dsimp only
    omega
  · rw [passed, Bool.and_eq_true, Bool.not_eq_true', ← Bool.not_eq_true, ended, Ne,
      Decidable.not_not, decide_eq_true_eq, Coordinate.Same]
    constructor
    · exact fun both => both.1
    · intro unterminated
      have := last unterminated
      exact ⟨unterminated, by omega⟩

end Line

namespace Extent

/-- Well-formed text gives one line after the other as the source has it. -/
theorem Cuts.spells_place {start : Nat} {lines : List Extent} {cs : List Char}
    (cuts : Cuts bytes start lines) (encoded : bytes.drop start = Utf8.encode cs)
    {n number i : Nat} {line : Line Int}
    (found : (Line.place bytes.length number (start : Int) ((lines.take n).map (text bytes)))[i]? =
      some line) :
    ∃ extent, lines[i]? = some extent ∧ line.Spells bytes extent := by
  -- the place of a scanned line never leaves the cut: what is passed of a line is what it has
  induction cuts generalizing cs n number i with
  | @last start bounded content =>
    have whole : slice bytes start bytes.length = Utf8.encode cs := by
      rw [slice, ← encoded, ← List.length_drop, List.take_length]
    have absent : '\n' ∉ cs := by
      rw [← Utf8.feed_mem_encode_iff, ← whole]
      exact Contents.feed_not_mem_slice fun i le _ => content i le
    have ended : Line.isTerminated cs = true ↔ (0 : Nat) ≠ 0 := by
      refine iff_of_false (fun last => absent ?_) (fun distinct => distinct rfl)
      exact List.mem_of_getLast? (decide_eq_true_eq.mp last)
    have text_eq : text bytes ⟨start, bytes.length, 0⟩ = cs := by
      rw [text, whole, Utf8.decodeFrom_encode]
    cases n with
    | zero => simp [Line.place] at found
    | succ n =>
      rw [List.take_succ_cons, List.take_nil, List.map_singleton, text_eq] at found
      cases i with
      | succ i => simp [Line.place] at found
      | zero =>
        cases found
        have passed := Line.pass_text ⟨start, bytes.length, 0⟩ bounded
          (Nat.le_refl _) whole
        exact ⟨_, rfl, Line.spells_of_text passed whole ended (fun _ => rfl) number _⟩
  | @line start feed rest begun content ended behind ih =>
    obtain ⟨piece, others, rfl, absent, line_eq, behind_eq⟩ :=
      exists_text_of_line begun content ended encoded
    have inside : feed < bytes.length := (List.getElem?_eq_some_iff.mp ended).1
    have text_eq : text bytes (endingAt bytes start feed) = piece ++ ['\n'] := by
      rw [text, endingAt, line_eq, Utf8.decodeFrom_encode]
    have terminated : Line.isTerminated (piece ++ ['\n']) = true ↔
        (endingAt bytes start feed).terminator ≠ 0 :=
      iff_of_true (by simp [Line.isTerminated]) (terminator_endingAt bytes start feed)
    have passed := Line.pass_text (endingAt bytes start feed)
      (Nat.le_succ_of_le begun) inside line_eq
    cases n with
    | zero => simp [Line.place] at found
    | succ n =>
      rw [List.take_succ_cons, List.map_cons, text_eq, Line.place] at found
      cases i with
      | zero =>
        cases found
        exact ⟨_, rfl, Line.spells_of_text passed line_eq terminated
          (fun none => absurd none (terminator_endingAt bytes start feed)) number _⟩
      | succ i =>
        rw [List.getElem?_cons_succ] at found
        have place_eq : Line.pass (start : Int) (piece ++ ['\n']) = ((feed + 1 : Nat) : Int) :=
          passed
        rw [place_eq] at found
        exact ih behind_eq found

end Extent

/-! ## Windows -/

namespace Contents

/-- Contents that begin on a line and end with one. -/
structure Runs (bytes : List UInt8) (c : Contents Int) : Prop where
  first : ∃ line, (table bytes)[c.line]? = some line ∧ line.Holds c.start
  last : ∃ k line, c.lineCount = k + 1 ∧ (table bytes)[c.line + k]? = some line ∧
    c.stop = line.stop
  data_eq : c.data = slice bytes c.start.toNat c.stop

theorem runs_of_read {s : Span Int} {before after : Nat} {c : Contents Int}
    (inside : s.Inside bytes) (succeeded : read bytes s before after = .ok c) : c.Runs bytes := by
  obtain ⟨first, last, dictates⟩ := dictates_of_read inside succeeded
  refine ⟨?_, dictates.exists_last, dictates.data_eq⟩
  by_cases some_before : 0 < before
  · obtain ⟨line, found, start_eq⟩ := (dictates.start_of_lines some_before).2
    refine ⟨line, found, ?_⟩
    rw [start_eq]
    exact (Extent.cuts_table bytes).holds_start line (List.mem_of_getElem? found)
  · have none_before : before = 0 := by omega
    have line_eq := dictates.line_eq
    rw [none_before, Nat.zero_min, Nat.sub_zero] at line_eq
    rw [line_eq, (dictates.start_of_span none_before).1]
    exact dictates.first_holds

theorem Whole.runs {c : Contents Int} (whole : c.Whole bytes) : c.Runs bytes := by
  obtain ⟨line, found, start_eq⟩ := whole.first
  refine ⟨⟨line, found, ?_⟩, whole.last, whole.data_eq⟩
  rw [start_eq]
  exact (Extent.cuts_table bytes).holds_start line (List.mem_of_getElem? found)

/-- Whole lines begin between characters of well-formed text. -/
theorem Whole.exists_text {c : Contents Int} {cs : List Char} (whole : c.Whole bytes)
    (encoded : bytes = Utf8.encode cs) :
    ∃ front back, cs = front ++ back ∧ bytes.drop c.start.toNat = Utf8.encode back := by
  obtain ⟨line, found, start_eq⟩ := whole.first
  have behind := (Extent.cuts_table bytes).exists_text_behind (by rwa [List.drop_zero]) line
    (List.mem_of_getElem? found)
  rwa [start_eq, Int.toNat_natCast]

/-- What stands behind the beginning of whole lines has no mark in front of it if the text has none
anywhere. -/
theorem Whole.exists_unmarked_text {c : Contents Int} {cs : List Char} (whole : c.Whole bytes)
    (encoded : bytes = Utf8.encode cs) (unmarked : Utf8.mark ∉ cs) :
    ∃ front back, cs = front ++ back ∧ bytes.drop c.start.toNat = Utf8.encode back ∧
      back.head? ≠ some Utf8.mark := by
  obtain ⟨front, back, rfl, encoded'⟩ := whole.exists_text encoded
  exact ⟨front, back, rfl, encoded', fun first =>
    unmarked (List.mem_append_right _ (List.mem_of_head? first))⟩

/-- The data of whole lines is a text. -/
theorem Whole.exists_data {c : Contents Int} {cs : List Char} (whole : c.Whole bytes)
    (encoded : bytes.drop c.start.toNat = Utf8.encode cs) :
    ∃ front back, cs = front ++ back ∧ c.data = Utf8.encode front := by
  obtain ⟨line, found, start_eq⟩ := whole.first
  obtain ⟨k, last, -, last_found, stop_eq⟩ := whole.last
  have cuts := (Extent.cuts_table bytes).drop found
  rw [← List.getElem?_drop] at last_found
  rw [start_eq, Int.toNat_natCast] at encoded
  obtain ⟨front, back, cs_eq, front_eq⟩ := cuts.exists_text encoded last_found
  refine ⟨front, back, cs_eq, ?_⟩
  rw [whole.data_eq, start_eq, Int.toNat_natCast, stop_eq, front_eq]

/-- Whole lines cover all that is read on them. -/
theorem Whole.covers {c d : Contents Int} (whole : c.Whole bytes) (runs : d.Runs bytes)
    (line_eq : c.line = d.line) (reach_eq : c.reach = d.reach) :
    c.start ≤ d.start ∧ c.stop = d.stop := by
  obtain ⟨line, found, start_eq⟩ := whole.first
  obtain ⟨other, other_found, holds⟩ := runs.first
  obtain ⟨k, last, lineCount_eq, last_found, stop_eq⟩ := whole.last
  obtain ⟨k', last', lineCount_eq', last_found', stop_eq'⟩ := runs.last
  unfold reach at reach_eq
  constructor
  · rw [← line_eq, found] at other_found
    cases other_found
    rw [start_eq]
    exact holds.1
  · rw [show c.line + k = d.line + k' by omega, last_found'] at last_found
    cases last_found
    rw [stop_eq, stop_eq']

end Contents

/-- Two lines with the same bytes, both with a terminator or both without. -/
structure Extent.Alike (line other : Extent) : Prop where
  start_eq : line.start = other.start
  stop_eq : line.stop = other.stop
  terminator_iff : line.terminator = 0 ↔ other.terminator = 0

theorem Line.Spells.of_alike {line : Line Int} {extent other : Extent}
    (spells : line.Spells bytes extent) (alike : extent.Alike other) : line.Spells bytes other := by
  obtain ⟨start_eq, stop_eq, terminator_iff⟩ := alike
  refine ⟨?_, ?_, ?_, ?_, ?_⟩
  · rw [spells.offset_eq, start_eq]
  · rw [spells.stop_eq, stop_eq]
  · rw [spells.bytes_eq, start_eq, stop_eq]
  · rw [spells.atEnd_iff, terminator_iff]
  · rw [spells.terminated_iff, Ne, terminator_iff]

namespace Contents

variable {c : Contents Int}

/-- A source cut from a place on has the lines of the source from one with a given index on, the
first one cut off in front. -/
structure CutFrom (bytes : List UInt8) (start index : Nat) (lines : List Extent) : Prop where
  cuts : Cuts bytes start lines
  length_eq : lines.length = (table bytes).length - index
  alike : ∀ j line, lines[j]? = some line →
    ∃ extent, (table bytes)[index + j]? = some extent ∧ line.Alike (extent.cutAt start)

theorem exists_cutFrom {start index : Nat} {first : Extent}
    (found : (table bytes)[index]? = some first) (holds : first.Holds (start : Int)) :
    ∃ lines, CutFrom bytes start index lines := by
  rw [Extent.holds_natCast] at holds
  have inside : index < (table bytes).length := (List.getElem?_eq_some_iff.mp found).1
  have cuts := (Extent.cuts_table bytes).drop found
  have split : (table bytes).drop index = first :: (table bytes).drop (index + 1) := by
    rw [List.drop_eq_getElem_cons inside]
    rw [(List.getElem?_eq_some_iff.mp found).2]
  rw [split] at cuts
  obtain ⟨terminator, terminator_iff, cuts'⟩ := cuts.cut_off holds.1 holds.2
  refine ⟨_, cuts', ?_, fun j line line_found => ?_⟩
  · rw [List.length_cons, List.length_drop]
    omega
  · have start_le := (cuts'.bounds line (List.mem_of_getElem? line_found)).1
    cases j with
    | zero =>
      cases line_found
      exact ⟨first, found, (Nat.max_eq_left holds.1).symm, rfl, terminator_iff⟩
    | succ j =>
      rw [List.getElem?_cons_succ, List.getElem?_drop] at line_found
      refine ⟨line, ?_, (Nat.max_eq_right start_le).symm, rfl, Iff.rfl⟩
      rw [← line_found]
      congr 1
      omega

/-- The beginning of a window as an index. -/
theorem Runs.natCast_start (runs : c.Runs bytes) : (c.start.toNat : Int) = c.start := by
  obtain ⟨line, -, holds⟩ := runs.first
  exact Int.toNat_of_nonneg holds.nonneg

section

variable {cs : List Char} (runs : c.Runs bytes)
  (encoded : bytes.drop c.start.toNat = Utf8.encode cs) (unmarked : cs.head? ≠ some Utf8.mark)

include runs encoded unmarked

/-- The lines of a window into well-formed text are made of the texts of the lines of the source
that have bytes in the window. -/
theorem Runs.scan_eq :
    ∃ lines k line, CutFrom bytes c.start.toNat c.line lines ∧ c.lineCount = k + 1 ∧
      lines[k]? = some line ∧ line.stop = c.stop ∧
      Line.scan c bytes.length = Line.place bytes.length (c.line + 1) (c.start.toNat : Int)
        ((lines.take (min (k + 1) (lines.countP (!·.isEmpty)))).map (Extent.text bytes)) := by
  obtain ⟨first, first_found, holds⟩ := runs.first
  obtain ⟨k, last, lineCount_eq, last_found, stop_eq⟩ := runs.last
  rw [← runs.natCast_start] at holds
  obtain ⟨lines, cutFrom⟩ := exists_cutFrom first_found holds
  have inside : k < lines.length := by
    have := (List.getElem?_eq_some_iff.mp last_found).1
    rw [cutFrom.length_eq]
    omega
  have found : lines[k]? = some lines[k] := List.getElem?_eq_getElem inside
  obtain ⟨extent, extent_found, alike⟩ := cutFrom.alike k _ found
  rw [last_found] at extent_found
  cases extent_found
  have line_stop : lines[k].stop = c.stop := alike.stop_eq.trans stop_eq.symm
  refine ⟨lines, k, lines[k], cutFrom, lineCount_eq, found, line_stop, ?_⟩
  obtain ⟨front, back, rfl, front_eq⟩ := cutFrom.cuts.exists_text encoded found
  have cut := cutFrom.cuts.pieces_decodeFrom found
  have unmarked_front := Utf8.head?_ne_mark unmarked
  rw [front_eq, Utf8.decodeFrom_encode] at cut
  rw [line_stop] at front_eq
  rw [Line.scan, runs.data_eq, front_eq, Utf8.decode_encode unmarked_front, cut,
    runs.natCast_start]

/-- Line by line, a window into well-formed text is what it leaves of the lines of the source. -/
theorem Runs.spells_scan {i : Nat} {line : Line Int}
    (found : (Line.scan c bytes.length)[i]? = some line) :
    ∃ extent, (table bytes)[c.line + i]? = some extent ∧
      line.Spells bytes (extent.cutAt c.start.toNat) := by
  obtain ⟨lines, k, last, cutFrom, -, -, -, scan_eq⟩ := runs.scan_eq encoded unmarked
  rw [scan_eq] at found
  obtain ⟨rest, rest_found, spells⟩ := cutFrom.cuts.spells_place encoded found
  obtain ⟨extent, extent_found, alike⟩ := cutFrom.alike i rest rest_found
  exact ⟨extent, extent_found, spells.of_alike alike⟩

/-- A window has as many lines as it touches, or one less if it holds no byte of the last one. -/
theorem Runs.length_scan :
    ∃ last, (table bytes)[c.reach - 1]? = some last ∧ last.stop = c.stop ∧
      ((Line.scan c bytes.length).length = c.lineCount ∧ max c.start last.start < c.stop ∨
        (Line.scan c bytes.length).length + 1 = c.lineCount ∧
          (c.stop : Int) ≤ max c.start last.start) := by
  obtain ⟨lines, k, line, cutFrom, lineCount_eq, found, stop_eq, scan_eq⟩ :=
    runs.scan_eq encoded unmarked
  obtain ⟨last, last_found, alike⟩ := cutFrom.alike k line found
  have inside := (List.getElem?_eq_some_iff.mp found).1
  have full_le : lines.countP (!·.isEmpty) ≤ lines.length := List.countP_le_length
  have length_le := cutFrom.cuts.length_le
  have isEmpty_iff := cutFrom.cuts.isEmpty_iff found
  rw [Extent.isEmpty, decide_eq_true_iff] at isEmpty_iff
  have start_eq : line.start = max c.start.toNat last.start := alike.start_eq
  have natCast_start := runs.natCast_start
  have index_eq : c.reach - 1 = c.line + k := by
    rw [reach, lineCount_eq]
    rfl
  have length_eq : (Line.scan c bytes.length).length =
      min (k + 1) (lines.countP (!·.isEmpty)) := by
    rw [scan_eq, Line.length_place, List.length_map, List.length_take]
    omega
  refine ⟨last, index_eq ▸ last_found, alike.stop_eq.symm.trans stop_eq, ?_⟩
  rw [length_eq, lineCount_eq]
  omega

/-- The bytes of the lines of a window are the bytes of the window. -/
theorem Runs.length_decode : (Utf8.length (Utf8.decode c.data) : Int) = c.span.length := by
  obtain ⟨lines, k, line, cutFrom, -, found, stop_eq, -⟩ := runs.scan_eq encoded unmarked
  have bounds := cutFrom.cuts.bounds line (List.mem_of_getElem? found)
  obtain ⟨front, back, rfl, front_eq⟩ := cutFrom.cuts.exists_text encoded found
  rw [stop_eq] at front_eq bounds
  have unmarked_front := Utf8.head?_ne_mark unmarked
  have natCast_start := runs.natCast_start
  have length_eq := congrArg List.length front_eq
  rw [Utf8.length_encode, slice, List.length_take, List.length_drop] at length_eq
  rw [runs.data_eq, front_eq, Utf8.decode_encode unmarked_front]
  show (Utf8.length front : Int) = (c.stop : Int) - c.start
  omega

/-- The line at the end of a source is the last one, and has no terminator. -/
theorem Runs.atEnd_iff {i : Nat} {line : Line Int}
    (found : (Line.scan c bytes.length)[i]? = some line) :
    (line.atEnd = true ↔
      i + 1 = (Line.scan c bytes.length).length ∧ Line.isTerminated line.text = false) ∧
    (line.atEnd = true → line.stop = (bytes.length : Int)) := by
  obtain ⟨extent, extent_found, spells⟩ := runs.spells_scan encoded unmarked found
  have inside := (List.getElem?_eq_some_iff.mp found).1
  rw [← Bool.not_eq_true, spells.terminated_iff, spells.atEnd_iff, Ne, Decidable.not_not]
  refine ⟨⟨fun unterminated => ⟨?_, unterminated⟩, And.right⟩, fun unterminated => ?_⟩
  · have last := ((Extent.cuts_table bytes).of_unterminated extent_found unterminated).1
    refine Nat.le_antisymm inside (Nat.le_of_not_lt fun more => ?_)
    -- a further line would be one of the source, behind its last one
    obtain ⟨next, next_found⟩ : ∃ next, (Line.scan c bytes.length)[i + 1]? = some next :=
      ⟨_, List.getElem?_eq_getElem more⟩
    obtain ⟨_, beyond, -⟩ := runs.spells_scan encoded unmarked next_found
    have := (List.getElem?_eq_some_iff.mp beyond).1
    omega
  · have stop_eq := ((Extent.cuts_table bytes).of_unterminated extent_found unterminated).2
    rw [spells.stop_eq, ← stop_eq]
    rfl

end

end Contents

namespace Line

/-- Scanned lines are the decoded window cut into a chain.  Where a window begins between two
characters of well-formed text, and not with a byte-order mark, they are the lines of the source
that it touches, from the place where it begins to its end; only a last line of which it holds no
byte is missing, and only the line without a terminator at the end of the source ends it. -/
theorem scan_spells_source (bytes : List UInt8) (s : Span Int) (before after : Nat)
    (valid : s.Valid) (inside : s.stop ≤ bytes.length) :
    ∃ c, Contents.read bytes s before after = .ok c ∧
      ((scan c bytes.length).map text).flatten = Utf8.decode c.data ∧
      Chain (c.line + 1) c.start (scan c bytes.length) ∧
      ∀ front back, bytes = Utf8.encode (front ++ back) → c.start = Utf8.length front →
        back.head? ≠ some Utf8.mark →
        (∀ i line, (scan c bytes.length)[i]? = some line →
          ∃ extent, (table bytes)[c.line + i]? = some extent ∧
            Extent.ofStart bytes extent.start = extent ∧
            line.Spells bytes (extent.cutAt c.start.toNat) ∧
            (line.atEnd = true ↔
              i + 1 = (scan c bytes.length).length ∧ isTerminated line.text = false) ∧
            (line.atEnd = true → line.stop = (bytes.length : Int))) ∧
        (scan c bytes.length).foldr (fun line total => line.length + total) (0 : Int) =
          c.span.length ∧
        ∃ last, (table bytes)[c.reach - 1]? = some last ∧ last.stop = c.stop ∧
          ((scan c bytes.length).length = c.lineCount ∧ max c.start last.start < c.stop ∨
            (scan c bytes.length).length + 1 = c.lineCount ∧
              (c.stop : Int) ≤ max c.start last.start) := by
  have s_inside := valid.inside inside
  obtain ⟨c, succeeded⟩ := Contents.exists_read s_inside before after
  have runs := Contents.runs_of_read s_inside succeeded
  have chain := chain_scan c bytes.length
  have texts := flatten_text_scan c bytes.length
  refine ⟨c, succeeded, texts, chain, fun front back bytes_eq start_eq unmarked => ?_⟩
  have encoded : bytes.drop c.start.toNat = Utf8.encode back := by
    rw [start_eq, Int.toNat_natCast, bytes_eq, Utf8.encode_append, ← Utf8.length_encode,
      List.drop_left]
  refine ⟨fun i line found => ?_, ?_, runs.length_scan encoded unmarked⟩
  · obtain ⟨extent, extent_found, spells⟩ := runs.spells_scan encoded unmarked found
    obtain ⟨atEnd_iff, stop_eq⟩ := runs.atEnd_iff encoded unmarked found
    have ofStart_eq := (Extent.cuts_table bytes).ofStart_eq (Nat.zero_le _) extent
      (List.mem_of_getElem? extent_found)
    exact ⟨extent, extent_found, ofStart_eq, spells, atEnd_iff, stop_eq⟩
  · rw [chain.total_length, texts, runs.length_decode encoded unmarked]

/-- A window that begins between a carriage return and its line feed. -/
theorem scan_spells_source_within_terminator :
    (⟨2, 3⟩ : Span Int).Valid ∧
      (⟨2, 3⟩ : Span Int).stop ≤ ([0x61, 0x0D, 0x0A, 0x62, 0xC3, 0xA9] : List UInt8).length ∧
      ∃ c, Contents.read [0x61, 0x0D, 0x0A, 0x62, 0xC3, 0xA9] (⟨2, 3⟩ : Span Int) (0 : Nat) 0 =
          .ok c ∧
        Chain (c.line + 1) c.start (scan c 6) ∧
        (scan c 6).foldr (fun line total => line.length + total) (0 : Int) = c.span.length := by
  refine ⟨by decide, by decide, ?_⟩
  obtain ⟨c, succeeded, -, chain, exact_lines⟩ :=
    scan_spells_source [0x61, 0x0D, 0x0A, 0x62, 0xC3, 0xA9] ⟨2, 3⟩ 0 0 (by decide) (by decide)
  have start_eq : c.start = 2 := by
    cases succeeded
    rfl
  have places := exact_lines ['a', '\r'] ['\n', 'b', 'é'] (by decide) start_eq (by decide)
  exact ⟨c, succeeded, chain, places.2.1⟩

end Line

end Marginalia
