import Mathlib.Data.List.Forall2
import Marginalia.Proofs.Layout.Marked
import Marginalia.Proofs.Snippet.Moved
import Marginalia.Proofs.Snippet.Placement

/-!
# A byte-order mark in front of snippets

In well-formed text a byte-order mark put in front of a source changes no line of a snippet: each
has its number and its content.  The labels are moved behind the mark, and in all windows but one
that begins with the first line so are the lines, and each label has the relations that it had.  A
window that begins with the first line loses the mark in decoding, and there a label begins and ends
three bytes too late for its lines.
-/

namespace Marginalia

open Extent (table lineFeed carriageReturn)
open Marked

variable {bytes : List UInt8} {before after : Nat}

/-- A source with a byte-order mark in front. -/
def Source.marked (source : Source) : Source := { source with bytes := ofBytes source.bytes }

theorem Marked.decode_marked {cs : List Char} (unmarked : cs.head? ≠ some Utf8.mark) :
    Utf8.decode (ofBytes (Utf8.encode cs)) = Utf8.decode (Utf8.encode cs) := by
  have encoded : ofBytes (Utf8.encode cs) = Utf8.encode (Utf8.mark :: cs) := rfl
  rw [encoded, Utf8.decode_encode unmarked, Utf8.decode, Utf8.decodeFrom_encode]
  rfl

/-! ## Windows -/

/-- What becomes of windows once the mark is put in. -/
def Marked.transfer (bytes : List UInt8) (before after : Nat) :
    Transfer bytes (ofBytes bytes) before after where
  toMotion := motion
  contents := Contents.withMark before
  header found := (found.1, if found.1 = 0 then found.2 + 3 else found.2)
  line_eq c := by
    rw [Contents.withMark]
    split <;> rfl
  reach_eq c := by
    rw [Contents.withMark]
    split <;> rfl
  read := Contents.read_marked
  locate := Contents.locate_marked

namespace Window

variable {l : Label Int}

theorem atEnd_marked_iff : AtEnd (ofBytes bytes) (l.moved motion) ↔ AtEnd bytes l := by
  simp only [AtEnd, Coordinate.Same, Label.span_moved, Span.isPoint_moved, Span.offset_moved,
    place_eq, length_ofBytes]
  refine and_congr_right fun _ => ?_
  omega

theorem back_marked (l : Label Int) (count : Int) :
    back (l.moved motion) count = (back l count).moved motion := by
  have offset_eq : l.span.offset + 3 - count = l.span.offset - count + 3 := by omega
  have length_eq : (l.span.moved motion).length = ((back l count).span.moved motion).length := by
    simp only [back, Span.length_moved, Span.stop_eq, place_eq]
    omega
  simp only [back, Label.moved, length_eq, Span.offset_moved, place_eq, offset_eq]
  rfl

/-- The mark is never part of a terminator. -/
theorem settle_marked (l : Label Int) :
    settle (ofBytes bytes) (l.moved motion) = (settle bytes l).moved motion := by
  by_cases atEnd : AtEnd bytes l
  · have atEnd' := atEnd_marked_iff.mpr atEnd
    by_cases ended : bytes.getLast? = some lineFeed
    · obtain ⟨front, rfl⟩ := List.getLast?_eq_some_iff.mp ended
      by_cases returned : front.getLast? = some carriageReturn
      · obtain ⟨content, rfl⟩ := List.getLast?_eq_some_iff.mp returned
        rw [List.append_assoc, List.singleton_append] at atEnd atEnd' ⊢
        rw [settle_of_returned atEnd, ← back_marked]
        exact @settle_of_returned (ofBytes content) _ atEnd'
      · rw [settle_of_fed atEnd returned, ← back_marked]
        exact @settle_of_fed (ofBytes front) _ atEnd' (getLast?_ofBytes_ne (by decide) returned)
    · rw [settle_of_unended ended, settle_of_unended (getLast?_ofBytes_ne (by decide) ended)]
  · rw [settle_of_not_atEnd atEnd, settle_of_not_atEnd (mt atEnd_marked_iff.mp atEnd)]

/-- A window is aligned by reading it from the beginning of its line, be it there already or
not. -/
theorem aligned_eq_read {source : Source} {w : Window Int}
    (read : Contents.read source.bytes w.span before after = .ok w.contents) :
    w.aligned source before after =
      Contents.read source.bytes ⟨w.span.offset - w.contents.column,
        w.span.stop - (w.span.offset - w.contents.column)⟩ before after := by
  by_cases begins : w.contents.column = 0
  · have at_start : Coordinate.Same w.contents.column ((0 : Nat) : Int) := by
      simp [Coordinate.Same, begins]
    rw [aligned, if_pos at_start, begins, Int.sub_zero, Span.between_ends, read]
  · have away : ¬Coordinate.Same w.contents.column ((0 : Nat) : Int) := by
      simp [Coordinate.Same]
      omega
    rw [aligned, if_neg away]
    rfl

/-- A window is aligned as it was, with the mark if it begins with the first line. -/
theorem MadeOfLabels.aligned_marked {source : Source} {w : Window Int} {c : Contents Int}
    (made : w.MadeOfLabels source.bytes before after)
    (aligned : w.aligned source before after = .ok c) (line_eq : c.line = w.contents.line) :
    (w.moved (transfer source.bytes before after)).aligned source.marked before after =
      .ok c.marked := by
  have inside := made.valid.inside (Contents.stop_le_of_read made.read)
  have read' := Contents.read_marked inside made.read
  obtain ⟨first, last, dictates⟩ := Contents.dictates_of_read inside made.read
  rw [aligned_eq_read made.read] at aligned
  rw [aligned_eq_read read']
  have span_eq : (w.moved (transfer source.bytes before after)).span = w.span.moved motion := rfl
  have contents_eq : (w.moved (transfer source.bytes before after)).contents =
      w.contents.withMark before := rfl
  rw [span_eq, contents_eq, Span.offset_moved, Span.stop_moved, place_eq, place_eq]
  by_cases none_before : before = 0
  · obtain ⟨-, line, found, column_eq⟩ := dictates.start_of_span none_before
    have start_eq : w.span.offset - w.contents.column = line.start := by omega
    have first_eq : first = w.contents.line := by
      rw [dictates.line_eq, none_before, Nat.zero_min, Nat.sub_zero]
    rw [start_eq] at aligned
    rw [Contents.withMark, if_pos none_before]
    by_cases top : w.contents.line = 0
    · have start_zero := (Extent.start_eq_zero_iff found).mpr (first_eq.trans top)
      have start_eq' : w.span.offset + 3 - w.contents.behindMark.column = 0 := by
        simp only [Contents.behindMark, if_pos top]
        omega
      have nonneg : 0 ≤ w.span.stop := by
        have stop_eq := w.span.stop_eq
        have length := inside.length
        have offset := inside.offset
        omega
      rw [start_zero, Int.natCast_zero, Int.sub_zero, none_before] at aligned
      rw [start_eq', Int.sub_zero, none_before]
      exact Contents.read_with_mark nonneg aligned
    · have start_eq' : w.span.offset + 3 - w.contents.behindMark.column = (line.start : Int) + 3 := by
        simp only [Contents.behindMark, if_neg top]
        omega
      have holds : (line.start : Int) ≤ w.span.offset := by
        obtain ⟨first_line, first_found, holds⟩ := dictates.first_holds
        cases found.symm.trans first_found
        exact holds.1
      have moved := Contents.read_marked (inside.moved_back holds) aligned
      rw [Span.moved_between, Contents.withMark, if_pos none_before,
        Contents.behindMark_eq_marked (line_eq ▸ top)] at moved
      rw [start_eq']
      exact moved
  · have begins := (dictates.start_of_lines (Nat.pos_of_ne_zero none_before)).1
    rw [begins, Int.sub_zero, Span.between_ends, made.read, Except.ok.injEq] at aligned
    rw [Contents.withMark, if_neg none_before] at read' ⊢
    have begins' : w.contents.marked.column = 0 := begins
    rw [begins', Int.sub_zero, ← aligned, ← read']
    rfl

end Window

/-! ## Frames -/

/-- The windows of labels laid out against their lines. -/
def Snippet.frames (manner : Manner) (source : Source) (labels : List (Label Int)) :
    Except (SpanError Int) (List (Frame Int)) := do
  let merge ← Window.ofSource source labels manner.before manner.after
  merge.windows.mapM (Frame.ofWindow manner source)

namespace Frame

/-- The relations of the labels of a frame, line by line. -/
def relations (f : Frame Int) : List (List Relation) := f.layout.lines.map LaidLine.relations

/-- What the mark in front of its source leaves of a frame: the numbers and the contents of its
lines.  Each line has the relations that it had, unless the frame begins with the first line and has
a line without bytes to spare for a label. -/
structure BehindMark (f g : Frame Int) : Prop where
  labels_eq : g.window.labels = f.window.labels.map (Label.moved motion)
  numbers_eq : g.layout.lines.map (·.line.number) = f.layout.lines.map (·.line.number)
  contents_eq : g.layout.lines.map (·.line.content) = f.layout.lines.map (·.line.content)
  relations_eq_iff : g.relations = f.relations ↔
    (f.contents.line = 0 → ∀ laid ∈ f.layout.lines, ∀ l ∈ f.window.labels,
      laid.line.Spares l.span)

variable {manner : Manner} {source : Source} {w : Window Int} {text : List Char}

/-- A frame once the mark is put in. -/
def marked (bytes : List UInt8) (manner : Manner) (f : Frame Int) : Frame Int where
  window := f.window.moved (transfer bytes manner.before manner.after)
  contents := f.contents.marked
  layout := .ofLines (f.layout.lines.map fun laid => laid.line.marked f.contents.line)
    (f.window.labels.map fun l => l.span.moved motion)

/-- A window that begins with the first line of a text has its lines there, and they are decoded as
they are without the mark. -/
private theorem top_of_whole {c : Contents Int} (whole : c.Whole source.bytes)
    (encoded : source.bytes = Utf8.encode text) (unmarked : text.head? ≠ some Utf8.mark)
    (top : c.line = 0) :
    c.start = 0 ∧ Utf8.length (Utf8.decode c.data) ≤ source.size ∧
      Utf8.decode (ofBytes c.data) = Utf8.decode c.data := by
  obtain ⟨line, found, start_eq⟩ := whole.first
  obtain ⟨k, last, -, last_found, stop_eq⟩ := whole.last
  have bounds := (Extent.cuts_table source.bytes).bounds last (List.mem_of_getElem? last_found)
  have start_zero : c.start = 0 := by
    rw [start_eq, (Extent.start_eq_zero_iff found).mpr top]
    rfl
  have encoded' : source.bytes.drop c.start.toNat = Utf8.encode text := by
    rw [start_zero]
    exact encoded
  have length_eq := whole.runs.length_decode encoded' unmarked
  have span_length : c.span.length = (c.stop : Int) - c.start := rfl
  obtain ⟨shown, rest, rfl, data_eq⟩ := whole.exists_data encoded'
  refine ⟨start_zero, ?_, ?_⟩
  · rw [Source.size]
    omega
  · rw [data_eq]
    exact decode_marked (Utf8.head?_ne_mark unmarked)

/-- In a window that begins with the first line, labels keep their relations just if each line has
bytes to spare for them; in all other windows they do. -/
private theorem relations_marked_iff {c : Contents Int} {labels : List (Label Int)}
    (labels_valid : ∀ l ∈ labels, l.span.Valid) (start_eq : c.line = 0 → c.start = 0) :
    (∀ line ∈ Line.scan c source.size, ∀ l ∈ labels,
      Relation.classify (line.marked c.line) (l.span.moved motion) =
        Relation.classify line l.span) ↔
      (c.line = 0 → ∀ line ∈ Line.scan c source.size, ∀ l ∈ labels, line.Spares l.span) := by
  by_cases top : c.line = 0
  · have same : ∀ line : Line Int, line.marked 0 = line.goingOn := fun _ => rfl
    have chain := Line.chain_scan c source.size
    rw [start_eq top] at chain
    have spared (l : Label Int) (member : l ∈ labels) :
        (∀ line ∈ Line.scan c source.size,
          Relation.classify line.goingOn (l.span.moved motion) = Relation.classify line l.span) ↔
          ∀ line ∈ Line.scan c source.size, line.Spares l.span := by
      have valid := (Span.valid_iff _).mp (labels_valid l member)
      refine chain.forall_classify_goingOn_iff valid.2.1 ⟨.inl valid.1, fun bytes => .inl ?_⟩
      rw [Span.stop_eq]
      omega
    simp only [top, same, true_imp_iff]
    exact ⟨fun kept line line_member l member =>
        (spared l member).mp (fun line line_member => kept line line_member l member) line
          line_member,
      fun spares line line_member l member =>
        (spared l member).mpr (fun line line_member => spares line line_member l member) line
          line_member⟩
  · have same : ∀ line : Line Int, line.marked c.line = line.behindMark := fun line => if_neg top
    refine iff_of_true (fun line _ l _ => ?_) fun first => absurd first top
    rw [same]
    exact Relation.classify_moved motion rfl line.stop_behindMark rfl l.span

theorem exists_marked (made : w.MadeOfLabels source.bytes manner.before manner.after)
    (encoded : source.bytes = Utf8.encode text) (unmarked : text.head? ≠ some Utf8.mark) :
    ∃ f, ofWindow manner source w = .ok f ∧ f.BehindMark (f.marked source.bytes manner) ∧
      ofWindow manner source.marked
          (w.moved (transfer source.bytes manner.before manner.after)) =
        .ok (f.marked source.bytes manner) := by
  obtain ⟨c, aligned, whole, line_eq, -⟩ := made.exists_aligned
  have aligned' := made.aligned_marked aligned line_eq
  have top := top_of_whole whole encoded unmarked
  have framed' := ofWindow_eq aligned'
  have size_eq : source.marked.size = source.size + 3 := length_ofBytes source.bytes
  have spans_eq : (w.labels.map (Label.moved motion)).map Label.span =
      w.labels.map fun l => l.span.moved motion := by
    simp [Function.comp_def]
  have lines_eq : (Layout.ofLines (Line.scan c source.size) (w.labels.map Label.span)).lines.map
      (fun laid => laid.line.marked c.line) = (Line.scan c source.size).map (Line.marked c.line) := by
    simp [Layout.ofLines, Function.comp_def]
  refine ⟨_, ofWindow_eq aligned, ⟨rfl, ?_, ?_, ?_⟩, ?_⟩
  · simp [marked, Layout.ofLines, Function.comp_def]
  · simp [marked, Layout.ofLines, Function.comp_def]
  · have kept_iff := @relations_marked_iff source c w.labels made.labels_valid fun first =>
      (top first).1
    simp only [relations, marked, Layout.ofLines, List.map_map, Function.comp_def,
      List.map_inj_left, List.forall_mem_map, kept_iff]
  · rw [framed', size_eq, Line.scan_marked top, ← lines_eq]
    simp only [marked, ← spans_eq]
    rfl

end Frame

/-! ## Snippets -/

namespace Snippet

/-- In well-formed text a byte-order mark put in front changes no number and no content of a line
that is laid out for labels within the text, if each label is moved by the bytes of the mark.  Its
relations to the lines are what they were, but in a window that begins with the first line only if
each line has bytes to spare for the mark behind the places at which labels begin and end.  The
moved labels have to be valid ones, which they are unless the source has more bytes than are counted
exactly. -/
theorem mark_keeps_relations_iff (source : Source) (text : List Char)
    (encoded : source.bytes = Utf8.encode text) (unmarked : text.head? ≠ some Utf8.mark)
    (labels : List (Label Int)) (valid : ∀ l ∈ labels, l.span.Valid)
    (inside : ∀ l ∈ labels, l.span.stop ≤ source.size)
    (moved_valid : ∀ l ∈ labels, (l.moved motion).span.Valid) (manner : Manner) :
    ∃ laid laid',
      frames manner source labels = .ok laid ∧
      frames manner source.marked (labels.map (Label.moved motion)) = .ok laid' ∧
      List.Forall₂ Frame.BehindMark laid laid' := by
  obtain ⟨m, gathered, gathered', made⟩ := @Window.exists_ofSource_moved manner.before
    manner.after source source.marked (transfer source.bytes manner.before manner.after) labels
    Window.settle_marked valid inside moved_valid
  obtain ⟨laid, framed, kept, framed'⟩ := Frame.exists_frames_moved _ fun w member =>
    Frame.exists_marked (made w member) encoded unmarked
  refine ⟨laid, laid.map (Frame.marked source.bytes manner), ?_, ?_, ?_⟩
  · rw [frames, gathered]
    exact framed
  · rw [frames]
    exact (congrArg (· >>= _) gathered').trans framed'
  · rw [List.forall₂_map_right_iff, List.forall₂_same]
    exact kept

/-- A label at the beginning of a line that has bytes to spare. -/
theorem mark_keeps_relations_iff_of_spared :
    (Source.ofText "abcdef\n").bytes = Utf8.encode ['a', 'b', 'c', 'd', 'e', 'f', '\n'] ∧
      ['a', 'b', 'c', 'd', 'e', 'f', '\n'].head? ≠ some Utf8.mark ∧
      (∀ l ∈ [(⟨⟨0, 2⟩, none, none⟩ : Label Int)],
        l.span.Valid ∧ l.span.stop ≤ (Source.ofText "abcdef\n").size ∧
          (l.moved motion).span.Valid) ∧
      ∃ laid laid',
        frames ⟨0, 0, 4, .asciiPlain, .plain⟩ (.ofText "abcdef\n")
          [(⟨⟨0, 2⟩, none, none⟩ : Label Int)] = .ok laid ∧
        frames ⟨0, 0, 4, .asciiPlain, .plain⟩ (.ofText "\uFEFFabcdef\n")
          [(⟨⟨3, 2⟩, none, none⟩ : Label Int)] = .ok laid' ∧
        List.Forall₂ Frame.BehindMark laid laid' := by
  refine ⟨by decide, by decide, by decide, ?_⟩
  obtain ⟨laid, laid', framed, framed', behind⟩ :=
    mark_keeps_relations_iff (.ofText "abcdef\n") ['a', 'b', 'c', 'd', 'e', 'f', '\n'] (by decide)
      (by decide) [⟨⟨0, 2⟩, none, none⟩] (by decide) (by decide) (by decide)
      ⟨0, 0, 4, .asciiPlain, .plain⟩
  have source_eq : (Source.ofText "abcdef\n").marked = .ofText "\uFEFFabcdef\n" := by decide
  rw [source_eq] at framed'
  exact ⟨laid, laid', framed, framed', behind⟩

/-- It is not so that a mark put in front of a source leaves all labels where they are: the label of
the first byte of a short line is on no line any more. -/
theorem not_all_relations_kept :
    ¬∀ (source : Source) (text : List Char), source.bytes = Utf8.encode text →
      text.head? ≠ some Utf8.mark → ∀ labels : List (Label Int), (∀ l ∈ labels, l.span.Valid) →
        (∀ l ∈ labels, l.span.stop ≤ source.size) →
        (∀ l ∈ labels, (l.moved motion).span.Valid) → ∀ (manner : Manner) (laid laid' : _),
          frames manner source labels = .ok laid →
          frames manner source.marked (labels.map (Label.moved motion)) = .ok laid' →
          laid'.map Frame.relations = laid.map Frame.relations := by
  intro kept
  have shown : (frames ⟨1, 1, 4, .asciiPlain, .plain⟩ (.ofText "abc") [⟨⟨0, 1⟩, none, none⟩]).map
      (List.map Frame.relations) = .ok [[[.contained]]] := by
    rw [frames, Window.ofSource, Merge.ofLabels, List.map_singleton, Label.sort_singleton]
    rfl
  have hidden : (frames ⟨1, 1, 4, .asciiPlain, .plain⟩ (Source.ofText "abc").marked
      ([⟨⟨0, 1⟩, none, none⟩].map (Label.moved motion))).map
      (List.map Frame.relations) = .ok [[[.none]]] := by
    rw [frames, Window.ofSource, Merge.ofLabels, List.map_singleton, List.map_singleton,
      Label.sort_singleton]
    rfl
  cases framed : frames ⟨1, 1, 4, .asciiPlain, .plain⟩ (.ofText "abc")
      [⟨⟨0, 1⟩, none, none⟩] with
  | error e =>
    rw [framed] at shown
    cases shown
  | ok laid =>
    cases framed' : frames ⟨1, 1, 4, .asciiPlain, .plain⟩ (Source.ofText "abc").marked
        ([⟨⟨0, 1⟩, none, none⟩].map (Label.moved motion)) with
    | error e =>
      rw [framed'] at hidden
      cases hidden
    | ok laid' =>
      have same := kept _ ['a', 'b', 'c'] (by decide) (by decide) _ (by decide) (by decide)
        (by decide) _ laid laid' framed framed'
      rw [framed, Except.map, Except.ok.injEq] at shown
      rw [framed', Except.map, Except.ok.injEq] at hidden
      rw [shown, hidden] at same
      exact absurd same (by decide)

end Snippet

end Marginalia
