import Marginalia.Proofs.Layout.Relation
import Marginalia.Proofs.Snippet.Separation
import Marginalia.Proofs.Source.Spelling

/-!
# Labels on their lines

In well-formed text without byte-order marks every label with bytes is drawn in one of the windows.
Its connector or underline begins on the line of its first byte and ends on the line of its last
one, wherever these stand in a terminator or within a character, and whatever other labels are in
the window.
-/

namespace Marginalia

variable {bytes : List UInt8} {before after : Nat}

namespace Window

variable {source : Source} {w : Window Int} {l : Label Int}

/-- A window made ready covers all labels of the window. -/
theorem MadeOfLabels.exists_aligned_covering
    (made : w.MadeOfLabels source.bytes before after) :
    ∃ c, w.aligned source before after = .ok c ∧ c.Whole source.bytes ∧
      ∀ l ∈ w.labels, c.start ≤ l.span.offset ∧ l.span.stop ≤ c.stop := by
  obtain ⟨c, aligned, whole, line_eq, reach_eq⟩ := made.exists_aligned
  have inside := made.valid.inside (Contents.stop_le_of_read made.read)
  have runs := Contents.runs_of_read inside made.read
  obtain ⟨start_le, stop_eq⟩ := whole.covers runs line_eq reach_eq
  obtain ⟨first, last, dictates⟩ := Contents.dictates_of_read inside made.read
  obtain ⟨start_le', le_stop'⟩ := dictates.covers inside
  refine ⟨c, aligned, whole, fun l member => ?_⟩
  have offset_le := made.covers.offset_le l member
  have le_stop := made.covers.le_stop l member
  omega

end Window

namespace Line

/-- A line that spells a line of the source has the number of every position that it holds. -/
theorem exists_locate_of_spells {line : Line Int} {extent : Extent} {i start : Nat}
    {position : Int} (found : (Extent.table bytes)[i]? = some extent)
    (spells : line.Spells bytes (extent.cutAt start)) (begun : line.offset ≤ position)
    (lt_stop : position < line.stop) :
    ∃ column, Contents.locate bytes position = .ok (i, column) := by
  have offset_eq := spells.offset_eq
  have stop_eq := spells.stop_eq
  have start_le : extent.start ≤ (extent.cutAt start).start := Nat.le_max_right _ _
  have stop_same : (extent.cutAt start).stop = extent.stop := rfl
  have bounds := (Extent.cuts_table bytes).bounds extent (List.mem_of_getElem? found)
  have holds : extent.Holds position := by
    simp only [Extent.Holds]
    omega
  obtain ⟨column, located⟩ := @Contents.exists_locate_eq bytes position holds.nonneg (by omega)
  rw [Extent.lineAt_toNat_of_holds found holds] at located
  exact ⟨column, located⟩

end Line

namespace Frame

/-- Whether one of the drawn lines has the number of the line of a position. -/
def Locates (bytes : List UInt8) (f : Frame Int) (i : Nat) (position : Int) : Prop :=
  ∃ laid place, f.layout.lines[i]? = some laid ∧ Contents.locate bytes position = .ok place ∧
    laid.line.number = place.1 + 1

variable {manner : Manner} {source : Source} {w : Window Int} {c : Contents Int}

theorem ofWindow_eq (aligned : w.aligned source manner.before manner.after = .ok c) :
    ofWindow manner source w =
      .ok ⟨w, c, Layout.ofLines (Line.scan c source.size) (w.labels.map Label.span)⟩ :=
  congrArg (Except.map _) aligned

/-- The relations of one label, line by line. -/
theorem map_relations {lines : List (Line Int)} {labels : List (Label Int)} {k : Nat}
    {l : Label Int} (found : labels[k]? = some l) :
    (Layout.ofLines lines (labels.map Label.span)).lines.map (·.relations[k]?) =
      (lines.map (Relation.classify · l.span)).map some := by
  simp only [Layout.ofLines, List.map_map, Function.comp_def, List.getElem?_map, found,
    Option.map_some]

/-- A scanned line that holds a position has the number of its line. -/
theorem locates_of_scan {text : List Char} (runs : c.Runs source.bytes)
    (encoded : source.bytes.drop c.start.toNat = Utf8.encode text)
    (unmarked : text.head? ≠ some Utf8.mark) {i : Nat} {line : Line Int} {position : Int}
    (found : (Line.scan c source.size)[i]? = some line) (begun : line.offset ≤ position)
    (lt_stop : position < line.stop) (labels : List (Label Int)) :
    Locates source.bytes ⟨w, c, Layout.ofLines (Line.scan c source.size) (labels.map Label.span)⟩
      i position := by
  obtain ⟨extent, extent_found, spells⟩ := runs.spells_scan encoded unmarked found
  obtain ⟨column, located⟩ := Line.exists_locate_of_spells extent_found spells begun lt_stop
  have number_eq := (Line.getElem?_place found).1
  refine ⟨⟨line, (labels.map Label.span).map (Relation.classify line)⟩, (c.line + i, column), ?_,
    located, ?_⟩
  · simp only [Layout.ofLines, List.getElem?_map, found, Option.map_some]
  · dsimp only
    omega

/-- The labels of a window follow its lines. -/
theorem exists_follows {text : List Char}
    (made : w.MadeOfLabels source.bytes manner.before manner.after)
    (encoded : source.bytes = Utf8.encode text) (unmarked : Utf8.mark ∉ text) :
    ∃ f, ofWindow manner source w = .ok f ∧
      ∀ (k : Nat) (l : Label Int), w.labels[k]? = some l → 0 < l.span.length →
        ∃ relations first last, f.layout.lines.map (·.relations[k]?) = relations.map some ∧
          Relation.Follows relations first last ∧ f.Locates source.bytes first l.span.offset ∧
          f.Locates source.bytes last (l.span.stop - 1) := by
  obtain ⟨c, aligned, whole, covers⟩ := made.exists_aligned_covering
  have runs := whole.runs
  obtain ⟨front, back, rfl, encoded', unmarked'⟩ := whole.exists_unmarked_text encoded unmarked
  refine ⟨_, ofWindow_eq aligned, fun k l found length => ?_⟩
  obtain ⟨start_le, le_stop⟩ := covers l (List.mem_of_getElem? found)
  have chain := Line.chain_scan c source.size
  have length_eq := runs.length_decode encoded' unmarked'
  have stop_eq : Line.Chain.stop c.start (Line.scan c source.size) = c.stop := by
    rw [Line.Chain.stop, Line.flatten_text_scan, length_eq]
    show c.start + ((c.stop : Int) - c.start) = c.stop
    omega
  -- the chain ends with the window: no byte is lost or gained in decoding
  obtain ⟨i, j, first, last, follows, first_found, first_le, lt_first, last_found, last_lt,
    le_last⟩ := chain.exists_follows length start_le (by omega)
  refine ⟨_, i, j, map_relations found, follows, ?_, ?_⟩
  · exact locates_of_scan runs encoded' unmarked' first_found first_le lt_first _
  · exact locates_of_scan runs encoded' unmarked' last_found (by omega) (by omega) _

end Frame

namespace Snippet

/-- Every label with bytes that ends within well-formed text without byte-order marks is in one of
the windows.  Along the lines of a window each of its labels with bytes is contained in one line, or
starts on one, passes those that follow and ends on another; these are the lines of its first and
of its last byte. -/
theorem labels_follow_lines (source : Source) (text : List Char)
    (encoded : source.bytes = Utf8.encode text) (unmarked : Utf8.mark ∉ text)
    (labels : List (Label Int)) (valid : ∀ l ∈ labels, l.span.Valid) (manner : Manner) :
    ∃ m, Window.ofSource source labels manner.before manner.after = .ok m ∧
      (∀ l ∈ labels, 0 < l.span.length → l.span.stop ≤ source.size →
        ∃ w ∈ m.windows, l ∈ w.labels) ∧
      ∀ w ∈ m.windows, ∃ f, Frame.ofWindow manner source w = .ok f ∧
        ∀ (k : Nat) (l : Label Int), w.labels[k]? = some l → 0 < l.span.length →
          ∃ relations first last,
            f.layout.lines.map (·.relations[k]?) = relations.map some ∧
            Relation.Follows relations first last ∧
            f.Locates source.bytes first l.span.offset ∧
            f.Locates source.bytes last (l.span.stop - 1) := by
  obtain ⟨m, gathered, gathers⟩ :=
    Merge.exists_gathers (Window.settled_valid valid) source.bytes manner.before manner.after
  refine ⟨m, gathered, fun l member length inside => ?_, fun w member => ?_⟩
  · have kept : l ∈ Label.sort (labels.map (Window.settle source.bytes)) := by
      rw [(Label.sort_stablySorted _).perm.mem_iff]
      exact List.mem_map.mpr ⟨l, member, Window.settle_of_length_pos length⟩
    have readable : l.isBeyond source.bytes = false := decide_eq_false (Int.not_lt.mpr inside)
    have shown : l ∈ m.windows.flatMap Window.labels := by
      rw [gathers.labels_eq]
      exact List.mem_append_right _ (List.mem_filter.mpr ⟨kept, by rw [readable]; rfl⟩)
    exact List.mem_flatMap.mp shown
  · exact Frame.exists_follows (gathers.madeOfLabels w member) encoded unmarked

/-- A label from a carriage return on the first line to within a character on the second one. -/
theorem labels_follow_lines_across_terminator :
    (Source.ofText "a\r\né").bytes = Utf8.encode ['a', '\r', '\n', 'é'] ∧
      Utf8.mark ∉ ['a', '\r', '\n', 'é'] ∧
      (∀ l ∈ [(⟨⟨1, 3⟩, none, none⟩ : Label Int)], l.span.Valid) ∧
      ∃ m f relations first last,
        Window.ofSource (.ofText "a\r\né") [(⟨⟨1, 3⟩, none, none⟩ : Label Int)] (0 : Nat) 0 =
          .ok m ∧
        (∃ w ∈ m.windows,
          Frame.ofWindow ⟨0, 0, 4, .asciiPlain, .plain⟩ (.ofText "a\r\né") w = .ok f) ∧
        (∃ k : Nat, f.layout.lines.map (·.relations[k]?) = relations.map some) ∧
        Relation.Follows relations first last := by
  refine ⟨by decide, by decide, by decide, ?_⟩
  obtain ⟨m, gathered, shown, framed⟩ :=
    labels_follow_lines (.ofText "a\r\né") ['a', '\r', '\n', 'é'] (by decide) (by decide)
      [⟨⟨1, 3⟩, none, none⟩] (by decide) ⟨0, 0, 4, .asciiPlain, .plain⟩
  obtain ⟨w, w_member, l_member⟩ :=
    shown _ (List.mem_singleton_self _) (by decide) (by decide)
  obtain ⟨k, found⟩ := List.mem_iff_getElem?.mp l_member
  obtain ⟨f, framed, laid⟩ := framed w w_member
  obtain ⟨relations, first, last, relations_eq, follows, -⟩ := laid k _ found (by decide)
  exact ⟨m, f, relations, first, last, gathered, ⟨w, w_member, framed⟩, ⟨k, relations_eq⟩, follows⟩

end Snippet

end Marginalia
