import Marginalia.Proofs.Layout.Moved
import Marginalia.Proofs.Snippet.Moved
import Marginalia.Proofs.Snippet.Placement
import Marginalia.Proofs.Snippet.Redrawn
import Marginalia.Proofs.Text.Returns

/-!
# Line terminators in snippets

In well-formed text a carriage return in front of every line feed changes no snippet, drawn or
narrated, once the labels are moved with the bytes that they mark.  The windows are the moved ones,
their lines have the contents that they had, and every label has its relations and its columns.
-/

namespace Marginalia

open Extent (table lineFeed carriageReturn)
open Returns

variable {bytes : List UInt8} {before after : Nat}

/-- A source with a carriage return in front of every line feed. -/
def Source.withReturns (source : Source) : Source := { source with bytes := ofBytes source.bytes }

/-! ## Windows -/

/-- What becomes of windows once the returns are put in. -/
def Returns.transfer (bytes : List UInt8) (before after : Nat) :
    Transfer bytes (ofBytes bytes) before after where
  toMotion := motion bytes
  contents := Contents.withReturns bytes
  header := id
  line_eq _ := rfl
  reach_eq _ := rfl
  read := Contents.read_withReturns
  locate := Contents.locate_withReturns

namespace Window

variable {l : Label Int}

theorem atEnd_moved_iff :
    AtEnd (ofBytes bytes) (l.moved (motion bytes)) ↔ AtEnd bytes l := by
  rw [AtEnd, AtEnd, length_ofBytes_eq_shift, ← place_natCast, Label.span_moved, Span.isPoint_moved,
    Span.offset_moved, (motion bytes).same_place_iff]

/-- Two bytes back behind the returns is one byte back in front of them. -/
theorem back_moved {front : List UInt8} (atEnd : AtEnd (front ++ [lineFeed]) l) :
    back (l.moved (motion (front ++ [lineFeed]))) 2 =
      (back l 1).moved (motion (front ++ [lineFeed])) := by
  obtain ⟨point, same⟩ := atEnd
  rw [Span.isPoint_iff] at point
  have last : (front ++ [lineFeed])[front.length]? = some lineFeed := by simp
  have grown : shift (front ++ [lineFeed]) (front.length + 1) =
      shift (front ++ [lineFeed]) front.length + 2 := shift_succ last
  have offset_eq : l.span.offset = ((front.length + 1 : Nat) : Int) := by
    simp only [Coordinate.Same, List.length_append, List.length_singleton] at same
    omega
  have back_eq : l.span.offset - 1 = (front.length : Int) := by omega
  have place_eq : (motion (front ++ [lineFeed])).place l.span.offset - 2 =
      (motion (front ++ [lineFeed])).place (l.span.offset - 1) := by
    rw [back_eq, offset_eq, place_natCast, place_natCast, grown]
    omega
  simp only [back, Label.moved, Span.moved, Span.stop_eq, point, Int.add_zero, Int.sub_self,
    place_eq]

/-- A point behind the last terminator moves back in front of it, however long it is. -/
theorem settle_moved (plain : carriageReturn ∉ bytes) (l : Label Int) :
    settle (ofBytes bytes) (l.moved (motion bytes)) = (settle bytes l).moved (motion bytes) := by
  by_cases atEnd : AtEnd bytes l
  · by_cases ended : bytes.getLast? = some lineFeed
    · obtain ⟨front, rfl⟩ := List.getLast?_eq_some_iff.mp ended
      rw [List.mem_append, not_or] at plain
      have atEnd' := atEnd_moved_iff.mpr atEnd
      have returned : ofBytes (front ++ [lineFeed]) = ofBytes front ++ [carriageReturn, lineFeed] :=
        ofBytes_append _ _
      rw [returned] at atEnd' ⊢
      rw [settle_of_fed atEnd (mt List.mem_of_getLast? plain.1), settle_of_returned atEnd']
      exact back_moved atEnd
    · rw [settle_of_unended ended, settle_of_unended]
      rwa [getLast?_ofBytes]
  · rw [settle_of_not_atEnd atEnd, settle_of_not_atEnd (mt atEnd_moved_iff.mp atEnd)]

/-- The windows of moved labels are the moved windows. -/
theorem exists_ofSource_withReturns {source : Source} {labels : List (Label Int)}
    (plain : carriageReturn ∉ source.bytes) (valid : ∀ l ∈ labels, l.span.Valid)
    (inside : ∀ l ∈ labels, l.span.stop ≤ source.size)
    (moved_valid : ∀ l ∈ labels, (l.moved (motion source.bytes)).span.Valid)
    (before after : Nat) :
    ∃ m, ofSource source labels before after = .ok m ∧
      ofSource source.withReturns (labels.map (Label.moved (motion source.bytes))) before after =
        .ok ⟨m.windows.map (Window.moved (transfer source.bytes before after)), m.failures⟩ ∧
      ∀ w ∈ m.windows, w.MadeOfLabels source.bytes before after :=
  @exists_ofSource_moved before after source source.withReturns
    (transfer source.bytes before after) labels (settle_moved plain) valid inside moved_valid

/-- A window is aligned as it was. -/
theorem MadeOfLabels.aligned_moved {source : Source} {w : Window Int} {c : Contents Int}
    (made : w.MadeOfLabels source.bytes before after)
    (aligned : w.aligned source before after = .ok c) :
    (w.moved (transfer source.bytes before after)).aligned source.withReturns before after =
      .ok (c.withReturns source.bytes) := by
  have inside := made.valid.inside (Contents.stop_le_of_read made.read)
  by_cases begins : w.contents.column = 0
  · have at_start : Coordinate.Same w.contents.column ((0 : Nat) : Int) := by
      simp [Coordinate.Same, begins]
    rw [Window.aligned, if_pos at_start] at aligned
    cases aligned
    exact if_pos at_start
  · have away : ¬Coordinate.Same w.contents.column ((0 : Nat) : Int) := by
      simp [Coordinate.Same]
      omega
    rw [Window.aligned, if_neg away] at aligned
    obtain ⟨i, line, found, holds, start_eq, begun⟩ :=
      Contents.exists_line_of_column inside made.read begins
    have start_holds : line.Holds (line.start : Int) :=
      holds.of_le (Int.le_refl _) (Int.le_of_lt begun)
    have unmoved := Extent.Holds.place_sub found holds start_holds
    have start_eq' : (motion source.bytes).place w.span.offset - w.contents.column =
        (motion source.bytes).place line.start := by omega
    have aligned : Contents.read source.bytes ⟨w.span.offset - w.contents.column,
        w.span.stop - (w.span.offset - w.contents.column)⟩ before after = .ok c := aligned
    rw [start_eq] at aligned
    have moved := Contents.read_withReturns (inside.moved_back (Int.le_of_lt begun)) aligned
    rw [Span.moved_between, ← start_eq', ← Span.stop_moved] at moved
    exact (if_neg away).trans moved

end Window

/-! ## Lines -/

/-- The bytes of the content of a line stay together. -/
theorem Line.Spells.together {line : Line Int} {extent : Extent} {i start : Nat}
    (spells : line.Spells bytes (extent.cutAt start)) (found : (table bytes)[i]? = some extent)
    (formed : line.Formed) : Text.Together (motion bytes) line.offset line.content := by
  have offset_eq := spells.offset_eq
  have stop_eq : line.stop = extent.stop := spells.stop_eq
  have terminated_iff : isTerminated line.text = true ↔ extent.terminator ≠ 0 :=
    spells.terminated_iff
  have start_le : extent.start ≤ (extent.cutAt start).start := Nat.le_max_right _ _
  have length_eq := formed.length_eq
  rw [stop] at stop_eq
  -- the byte behind the content is still on the line: it begins the terminator, or there is none
  have holds (k : Nat) (le : k ≤ Utf8.length line.content) : extent.Holds (line.offset + k) := by
    rcases formed.ends.length_lt_or with longer | ⟨content_eq, unterminated⟩
    · simp only [Extent.Holds, Coordinate.Same]
      omega
    · rw [content_eq] at le
      have unended : ¬extent.terminator ≠ 0 := mt terminated_iff.mpr (by simp [unterminated])
      simp only [Extent.Holds, Coordinate.Same]
      omega
  intro k le
  have unmoved := (holds k le).place_sub found (holds 0 (Nat.zero_le _))
  rw [Int.natCast_zero, Int.add_zero] at unmoved
  omega

/-- A laid line once the returns are put in. -/
def LaidLine.withReturns (bytes : List UInt8) (laid : LaidLine Int) : LaidLine Int :=
  ⟨laid.line.withReturns bytes, laid.relations⟩

theorem Relation.classify_withReturns (line : Line Int) (s : Span Int) :
    classify (line.withReturns bytes) (s.moved (motion bytes)) = classify line s :=
  classify_moved (motion bytes) rfl (Line.stop_withReturns bytes line) rfl s

theorem Layout.ofLines_withReturns (bytes : List UInt8) (lines : List (Line Int))
    (spans : List (Span Int)) :
    ofLines (lines.map (Line.withReturns bytes)) (spans.map (Span.moved (motion bytes))) =
      ⟨(ofLines lines spans).lines.map (LaidLine.withReturns bytes),
        (ofLines lines spans).gutter⟩ := by
  simp only [ofLines, List.map_map, Function.comp_def, Relation.classify_withReturns,
    LaidLine.withReturns]

theorem Columns.ofSpan_withReturns {line : Line Int}
    (together : Text.Together (motion bytes) line.offset line.content) (tab : Nat) (s : Span Int) :
    ofSpan tab (line.withReturns bytes) (s.moved (motion bytes)) = ofSpan tab line s := by
  have offset_eq : (line.withReturns bytes).offset = (motion bytes).place line.offset := rfl
  exact ofSpan_moved (motion bytes) offset_eq rfl together tab s

/-- What is made of a list does not change if what is made of its members does not. -/
theorem flatMap_map_congr {α β γ : Type} {l : List α} {change : α → β} {g : β → List γ}
    {h : α → List γ} (same : ∀ a ∈ l, g (change a) = h a) :
    (l.map change).flatMap g = l.flatMap h := by
  rw [List.flatMap_map, List.flatMap_def, List.flatMap_def, List.map_congr_left same]

/-! ## Frames -/

namespace Frame

variable {manner : Manner} {source : Source} {w : Window Int} {f : Frame Int}

/-- A frame once the returns are put in. -/
def withReturns (bytes : List UInt8) (manner : Manner) (f : Frame Int) : Frame Int where
  window := f.window.moved (transfer bytes manner.before manner.after)
  contents := f.contents.withReturns bytes
  layout := ⟨f.layout.lines.map (LaidLine.withReturns bytes), f.layout.gutter⟩

/-- Whether the bytes of the content of each line of a frame stay together. -/
def Together (bytes : List UInt8) (f : Frame Int) : Prop :=
  ∀ laid ∈ f.layout.lines, Text.Together (motion bytes) laid.line.offset laid.line.content

theorem exists_withReturns {text : List Char}
    (made : w.MadeOfLabels source.bytes manner.before manner.after)
    (encoded : source.bytes = Utf8.encode text) (unmarked : Utf8.mark ∉ text)
    (plain : '\r' ∉ text) :
    ∃ f, ofWindow manner source w = .ok f ∧ f.Together source.bytes ∧
      ofWindow manner source.withReturns
        (w.moved (transfer source.bytes manner.before manner.after)) =
          .ok (f.withReturns source.bytes manner) := by
  obtain ⟨c, aligned, whole, -⟩ := made.exists_aligned
  have runs := whole.runs
  obtain ⟨front, back, rfl, encoded', unmarked'⟩ := whole.exists_unmarked_text encoded unmarked
  obtain ⟨shown, rest, rfl, data_eq⟩ := whole.exists_data encoded'
  have shown_plain : '\r' ∉ shown := fun within =>
    plain (List.mem_append_right _ (List.mem_append_left _ within))
  have nonneg : 0 ≤ c.start := by
    have := runs.natCast_start
    omega
  have scanned := Line.scan_withReturns nonneg encoded' data_eq (Utf8.head?_ne_mark unmarked')
    shown_plain
  refine ⟨_, ofWindow_eq aligned, fun laid member => ?_, ?_⟩
  · obtain ⟨line, line_member, rfl⟩ := List.mem_map.mp member
    obtain ⟨i, found⟩ := List.mem_iff_getElem?.mp line_member
    obtain ⟨extent, extent_found, spells⟩ := runs.spells_scan encoded' unmarked' found
    exact spells.together extent_found ((Line.chain_scan c source.size).formed line line_member)
  · have spans_eq : (w.labels.map (Label.moved (motion source.bytes))).map Label.span =
        (w.labels.map Label.span).map (Span.moved (motion source.bytes)) := by
      simp [Function.comp_def]
    have laid := Layout.ofLines_withReturns source.bytes (Line.scan c source.bytes.length)
      (w.labels.map Label.span)
    rw [← scanned, ← spans_eq] at laid
    rw [ofWindow_eq (made.aligned_moved aligned)]
    exact congrArg (fun layout => Except.ok (Frame.mk _ _ layout)) laid

/-! ## Rows -/

variable {laid : LaidLine Int}

theorem numberWidth_withReturns : (f.withReturns bytes manner).numberWidth = f.numberWidth := by
  simp only [numberWidth, withReturns, List.getLast?_map]
  cases f.layout.lines.getLast? <;> rfl

theorem callouts_withReturns :
    (f.withReturns bytes manner).callouts manner =
      (f.callouts manner).map (Callout.moved (motion bytes)) :=
  Callout.ofLabels_map_moved (motion bytes) _ _ _

theorem place_withReturns :
    (f.withReturns bytes manner).place manner (laid.withReturns bytes) =
      (f.place manner laid).map (Placed.moved (motion bytes)) := by
  rw [place, place, callouts_withReturns, List.zipWith_map_left, List.map_zipWith]
  rfl

/-- The spans that a line contains are underlined where they were. -/
theorem ofPlaced_withReturns {line : Line Int}
    (together : Text.Together (motion bytes) line.offset line.content) (tab : Nat)
    (placed : List (Placed Int)) :
    Underlined.ofPlaced tab (line.withReturns bytes) (placed.map (Placed.moved (motion bytes))) =
      (Underlined.ofPlaced tab line placed).map (Underlined.moved (motion bytes)) := by
  have kept : (fun p : Placed Int => decide (p.relation = .contained)) ∘
      Placed.moved (motion bytes) = fun p => decide (p.relation = .contained) := rfl
  rw [Underlined.ofPlaced, Underlined.ofPlaced, List.filter_map, kept, List.map_map, List.map_map]
  refine List.map_congr_left fun p _ => ?_
  simp only [Function.comp_apply, Placed.moved, Callout.moved, Underlined.moved,
    Columns.ofSpan_withReturns together]

variable {placed : List (Placed Int)}

theorem sourceRow_withReturns (language : Option String) (line : Line Int) :
    sourceRow manner (f.withReturns bytes manner) language (line.withReturns bytes)
      (placed.map (Placed.moved (motion bytes))) = sourceRow manner f language line placed := by
  rw [sourceRow, sourceRow, numberWidth_withReturns, Gutter.line_map_moved]
  rfl

theorem underlineRows_withReturns {line : Line Int}
    (together : Text.Together (motion bytes) line.offset line.content) :
    underlineRows manner (f.withReturns bytes manner) (line.withReturns bytes)
      (placed.map (Placed.moved (motion bytes))) = underlineRows manner f line placed := by
  simp only [underlineRows, numberWidth_withReturns, Gutter.row_map_moved,
    ofPlaced_withReturns together, Underline.rows_map_moved]
  rfl

theorem endRows_withReturns (c : Callout Int) (text : List (List Char)) :
    endRows manner (f.withReturns bytes manner) (placed.map (Placed.moved (motion bytes)))
      (c.moved (motion bytes)) text = endRows manner f placed c text := by
  simp only [endRows, numberWidth_withReturns, Gutter.row_map_moved]
  rfl

theorem allEndRows_withReturns :
    allEndRows manner (f.withReturns bytes manner) (placed.map (Placed.moved (motion bytes))) =
      allEndRows manner f placed := by
  rw [allEndRows, allEndRows, List.flatMap_map]
  refine congrArg (fun rows => placed.flatMap rows) (funext fun p => ?_)
  simp only [Placed.moved, endRows_withReturns]
  rfl

theorem lineRows_withReturns
    (together : Text.Together (motion bytes) laid.line.offset laid.line.content)
    (language : Option String) :
    lineRows manner (f.withReturns bytes manner) language (laid.withReturns bytes) =
      lineRows manner f language laid := by
  simp only [lineRows, place_withReturns]
  simp only [LaidLine.withReturns, sourceRow_withReturns, underlineRows_withReturns together,
    allEndRows_withReturns]

theorem rows_withReturns (together : f.Together bytes) (source : Source) :
    rows manner source.withReturns (f.withReturns bytes manner) = rows manner source f := by
  have lines_eq : (f.withReturns bytes manner).layout.lines.flatMap
      (lineRows manner (f.withReturns bytes manner) source.language) =
      f.layout.lines.flatMap (lineRows manner f source.language) :=
    flatMap_map_congr fun laid member =>
      lineRows_withReturns (together laid member) source.language
  have header_eq : header manner source.name (f.withReturns bytes manner) =
      header manner source.name f := by
    simp only [header, numberWidth_withReturns]
    rfl
  have footer_eq : footer manner (f.withReturns bytes manner) = footer manner f := by
    rw [footer, footer, numberWidth_withReturns]
  rw [rows, rows, ← lines_eq, ← header_eq, ← footer_eq]
  rfl

end Frame

/-! ## Narration -/

namespace Narration

variable {manner : Manner} {f : Frame Int}

theorem ofLabel_withReturns {line : Line Int}
    (together : Text.Together (motion bytes) line.offset line.content) (tab : Nat) (l : Label Int) :
    ofLabel tab (line.withReturns bytes) (l.moved (motion bytes)) = ofLabel tab line l := by
  -- where a label ends is told by a span from the beginning of the line, which is moved as well
  have up_to : (⟨(line.withReturns bytes).offset,
      (l.span.moved (motion bytes)).stop - (line.withReturns bytes).offset⟩ : Span Int) =
      (⟨line.offset, l.span.stop - line.offset⟩ : Span Int).moved (motion bytes) := by
    rw [Span.moved_between, Span.stop_moved]
    rfl
  funext relation
  simp only [ofLabel, Label.span_moved, up_to, Columns.ofSpan_withReturns together,
    Span.isPoint_moved]
  rfl

theorem ofLine_withReturns {laid : LaidLine Int}
    (together : Text.Together (motion bytes) laid.line.offset laid.line.content)
    (labels : List (Label Int)) :
    ofLine manner (labels.map (Label.moved (motion bytes))) (laid.withReturns bytes) =
      ofLine manner labels laid := by
  rw [ofLine, ofLine, List.zipWith_map_left]
  simp only [LaidLine.withReturns, ofLabel_withReturns together]
  rfl

theorem ofFrame_withReturns (together : f.Together bytes) (source : Source) :
    ofFrame manner source.withReturns (f.withReturns bytes manner) = ofFrame manner source f := by
  have lines_eq : (f.withReturns bytes manner).layout.lines.flatMap
      (ofLine manner (f.window.labels.map (Label.moved (motion bytes)))) =
      f.layout.lines.flatMap (ofLine manner f.window.labels) :=
    flatMap_map_congr fun laid member => ofLine_withReturns (together laid member) f.window.labels
  rw [ofFrame, ofFrame, ← lines_eq]
  rfl

end Narration

/-! ## Snippets -/

theorem Frame.exists_frames_withReturns {manner : Manner} {source : Source}
    {windows : List (Window Int)} {text : List Char}
    (made : ∀ w ∈ windows, w.MadeOfLabels source.bytes manner.before manner.after)
    (encoded : source.bytes = Utf8.encode text) (unmarked : Utf8.mark ∉ text)
    (plain : '\r' ∉ text) :
    ∃ frames, windows.mapM (ofWindow manner source) = .ok frames ∧
      (∀ f ∈ frames, f.Together source.bytes) ∧
      (windows.map (Window.moved (transfer source.bytes manner.before manner.after))).mapM
          (ofWindow manner source.withReturns) =
        .ok (frames.map (withReturns source.bytes manner)) :=
  exists_frames_moved _ fun w member => exists_withReturns (made w member) encoded unmarked plain

namespace Snippet

/-- In well-formed text without carriage returns and byte-order marks, a carriage return put in
front of every line feed changes nothing that is drawn or narrated for labels within the text, if
each label is moved by the line feeds in front of its ends.  The moved labels have to be valid ones,
which they are unless the source has more bytes than are counted exactly. -/
theorem returns_change_nothing (source : Source) (text : List Char)
    (encoded : source.bytes = Utf8.encode text) (plain : '\r' ∉ text)
    (unmarked : Utf8.mark ∉ text) (labels : List (Label Int)) (valid : ∀ l ∈ labels, l.span.Valid)
    (inside : ∀ l ∈ labels, l.span.stop ≤ source.size)
    (moved_valid : ∀ l ∈ labels, (l.moved (motion source.bytes)).span.Valid) (manner : Manner) :
    ∃ drawn narrated,
      rows manner source labels = .ok drawn ∧
      rows manner source.withReturns (labels.map (Label.moved (motion source.bytes))) =
        .ok drawn ∧
      Narration.lines manner source labels = .ok narrated ∧
      Narration.lines manner source.withReturns
        (labels.map (Label.moved (motion source.bytes))) = .ok narrated := by
  have plain_bytes : carriageReturn ∉ source.bytes := by
    rwa [encoded, Utf8.return_mem_encode_iff]
  obtain ⟨m, gathered, gathered', made⟩ := Window.exists_ofSource_withReturns plain_bytes valid
    inside moved_valid manner.before manner.after
  obtain ⟨frames, framed, together, framed'⟩ :=
    Frame.exists_frames_withReturns made encoded unmarked plain
  have rows_eq : (frames.map (Frame.withReturns source.bytes manner)).flatMap
      (Frame.rows manner source.withReturns) = frames.flatMap (Frame.rows manner source) :=
    flatMap_map_congr fun f member => Frame.rows_withReturns (together f member) source
  have told_eq : (frames.map (Frame.withReturns source.bytes manner)).flatMap
      (Narration.ofFrame manner source.withReturns) =
      frames.flatMap (Narration.ofFrame manner source) :=
    flatMap_map_congr fun f member => Narration.ofFrame_withReturns (together f member) source
  have drawn := rows_of_frames gathered' framed'
  have narrated := Narration.lines_of_frames gathered' framed'
  rw [rows_eq] at drawn
  rw [told_eq] at narrated
  exact ⟨_, _, rows_of_frames gathered framed, drawn, Narration.lines_of_frames gathered framed,
    narrated⟩

/-- Labels that end behind a terminator, begin on one and stand at the end of the source. -/
theorem returns_change_nothing_at_terminators :
    (Source.ofText "a\nb\n").bytes = Utf8.encode ['a', '\n', 'b', '\n'] ∧
      '\r' ∉ ['a', '\n', 'b', '\n'] ∧ Utf8.mark ∉ ['a', '\n', 'b', '\n'] ∧
      (∀ l ∈ [(⟨⟨0, 2⟩, none, none⟩ : Label Int), ⟨⟨1, 2⟩, none, none⟩, ⟨⟨4, 0⟩, none, none⟩],
        l.span.Valid ∧ l.span.stop ≤ (Source.ofText "a\nb\n").size ∧
          (l.moved (motion (Source.ofText "a\nb\n").bytes)).span.Valid) ∧
      ∃ drawn,
        rows ⟨0, 0, 4, .asciiPlain, .plain⟩ (.ofText "a\nb\n")
          [(⟨⟨0, 2⟩, none, none⟩ : Label Int), ⟨⟨1, 2⟩, none, none⟩, ⟨⟨4, 0⟩, none, none⟩] =
          .ok drawn ∧
        rows ⟨0, 0, 4, .asciiPlain, .plain⟩ (.ofText "a\r\nb\r\n")
          [(⟨⟨0, 3⟩, none, none⟩ : Label Int), ⟨⟨1, 3⟩, none, none⟩, ⟨⟨6, 0⟩, none, none⟩] =
          .ok drawn := by
  refine ⟨by decide, by decide, by decide, by decide, ?_⟩
  obtain ⟨drawn, -, drawn_eq, returned_eq, -⟩ :=
    returns_change_nothing (.ofText "a\nb\n") ['a', '\n', 'b', '\n'] (by decide) (by decide)
      (by decide) [⟨⟨0, 2⟩, none, none⟩, ⟨⟨1, 2⟩, none, none⟩, ⟨⟨4, 0⟩, none, none⟩] (by decide)
      (by decide) (by decide) ⟨0, 0, 4, .asciiPlain, .plain⟩
  have source_eq : (Source.ofText "a\nb\n").withReturns = .ofText "a\r\nb\r\n" := by decide
  rw [source_eq] at returned_eq
  exact ⟨drawn, drawn_eq, returned_eq⟩

end Snippet

end Marginalia
