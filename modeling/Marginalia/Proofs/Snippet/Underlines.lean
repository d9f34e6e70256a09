import Marginalia.Proofs.Layout.Columns
import Marginalia.Proofs.Snippet.Origin
import Marginalia.Proofs.Snippet.Separation
import Marginalia.Proofs.Snippet.Undressed
import Marginalia.Proofs.Text.Renditions
import Marginalia.Proofs.Text.Splitting
import Mathlib.Data.List.Forall2

/-!
# Underlines and the labels that hang from them

The labels of a window are in the order of their spans, and of two bytes the one behind stands in no
column further in front, so along a line the underlines begin one after the other.  What has been
drawn then ends where the spans in front end, and a span that is cut short by them loses no column
that they do not have.  So each column that a span has is drawn, by the first span that has it.

Below, a label waits with its bar in front of the current one only if the bar stands in front of the
middle of the current underline.  The bars and the blanks between them end there, and the label
hangs from the middle of its underline.
-/

namespace Marginalia

/-! ## Labels of a window in order -/

theorem Merge.window_offsets_ascending {bytes : List UInt8} {labels : List (Label Int)}
    {before : Int} {after : Nat} {m : Merge Int}
    (gathered : ofLabels bytes labels before after = .ok m) :
    ∀ w ∈ m.windows, w.labels.Pairwise fun a b => a.span.offset ≤ b.span.offset := by
  have ascending := (sort_offsets_ascending labels).sublist (labels_sublist gathered)
  exact (List.pairwise_flatMap.mp ascending).1

/-! ## Columns -/

namespace Columns

/-- Whether a column is one of them. -/
def Has (c : Columns) (column : Nat) : Prop := c.start ≤ column ∧ column < c.stop

instance (c : Columns) (column : Nat) : Decidable (c.Has column) :=
  inferInstanceAs (Decidable (_ ∧ _))

theorem has_middle {c : Columns} (wide : c.start < c.stop) : c.Has c.middle :=
  ⟨c.start_le_middle, middle_lt_stop wide⟩

end Columns

/-! ## Stretches of a row -/

/-- What is drawn from a column up to another one. -/
def stretch (draw : Nat → Char) (start stop : Nat) : List Char :=
  (List.range' start (stop - start)).map draw

section

variable {draw draw' : Nat → Char} {start middle stop : Nat}

@[simp] theorem length_stretch : (stretch draw start stop).length = stop - start := by
  simp [stretch]

theorem stretch_append (le : start ≤ middle) (le' : middle ≤ stop) :
    stretch draw start middle ++ stretch draw middle stop = stretch draw start stop := by
  have behind : middle = start + (middle - start) := by omega
  have whole : stop - start = middle - start + (stop - middle) := by omega
  rw [stretch, stretch, stretch, whole, ← List.range'_append_1, List.map_append, ← behind]

theorem stretch_congr (same : ∀ column, start ≤ column → column < stop →
    draw column = draw' column) : stretch draw start stop = stretch draw' start stop := by
  refine List.map_congr_left fun column member => ?_
  have bounds := List.mem_range'_1.mp member
  exact same column bounds.1 (by omega)

/-- A glyph drawn again and again. -/
theorem stretch_eq_replicate {glyph : Char} (same : ∀ column, start ≤ column → column < stop →
    draw column = glyph) : stretch draw start stop = List.replicate (stop - start) glyph := by
  rw [stretch_congr same, stretch, List.map_const', List.length_range']

theorem stretch_succ : stretch draw start (start + 1) = [draw start] := by
  simp [stretch]

theorem getElem?_stretch {column : Nat} (lt : column < stop) :
    (stretch draw 0 stop)[column]? = some (draw column) := by
  simp [stretch, lt]

end

/-! ## Underlines -/

@[simp] theorem Row.chars_nil : Row.chars [] = [] := rfl

@[simp] theorem Row.chars_cons (s : Segment) (r : Row) : Row.chars (s :: r) = s.chars ++ Row.chars r :=
  List.flatMap_cons

@[simp] theorem Row.chars_append (r t : Row) : Row.chars (r ++ t) = Row.chars r ++ Row.chars t :=
  List.flatMap_append

@[simp] theorem Segment.chars_blank (count : Int) :
    (blank count).chars = List.replicate count.toNat ' ' :=
  List.append_nil _

namespace Underline

variable {κ : Type} {g : Glyphs} {u : Underlined κ} {us : List (Underlined κ)} {column : Nat}

/-- The column behind the last one that is drawn in. -/
def extent (us : List (Underlined κ)) : Nat := (us.map (·.columns.stop)).foldr max 0

theorem extent_cons (u : Underlined κ) (us : List (Underlined κ)) :
    extent (u :: us) = max u.columns.stop (extent us) := rfl

theorem stop_le_extent (member : u ∈ us) : u.columns.stop ≤ extent us := by
  induction us with
  | nil => exact absurd member List.not_mem_nil
  | cons e rest ih =>
    rw [extent_cons]
    rcases List.mem_cons.mp member with rfl | member
    · exact Nat.le_max_left _ _
    · exact Nat.le_trans (ih member) (Nat.le_max_right _ _)

theorem exists_stop_eq_extent (nonempty : us ≠ []) : ∃ u ∈ us, u.columns.stop = extent us := by
  induction us with
  | nil => exact absurd rfl nonempty
  | cons u rest ih =>
    rw [extent_cons]
    by_cases last : extent rest ≤ u.columns.stop
    · exact ⟨u, List.mem_cons_self, (Nat.max_eq_left last).symm⟩
    · have behind : rest ≠ [] := by
        rintro rfl
        exact last (Nat.zero_le _)
      obtain ⟨e, member, stop_eq⟩ := ih behind
      exact ⟨e, List.mem_cons_of_mem _ member, by omega⟩

variable [Coordinate κ]

/-- What an underline is drawn with in one of its columns. -/
def glyphAt (g : Glyphs) (u : Underlined κ) (column : Nat) : Char :=
  if column = u.columns.middle then middleGlyph g u.callout else g.underline

/-- What is drawn in a column below a line: the first of the spans that have it draws there. -/
def cell (g : Glyphs) (us : List (Underlined κ)) (column : Nat) : Char :=
  match us.find? (·.columns.Has column) with
  | some u => glyphAt g u column
  | none => ' '

theorem cell_cons_of_has (has : u.columns.Has column) :
    cell g (u :: us) column = glyphAt g u column := by
  rw [cell, List.find?_cons_of_pos (by simpa using has)]

theorem cell_cons_of_not_has (absent : ¬u.columns.Has column) :
    cell g (u :: us) column = cell g us column := by
  rw [cell, List.find?_cons_of_neg (by simpa using absent)]
  rfl

theorem cell_of_absent (absent : ∀ u ∈ us, ¬u.columns.Has column) : cell g us column = ' ' := by
  induction us with
  | nil => rfl
  | cons u rest ih =>
    rw [List.forall_mem_cons] at absent
    rw [cell_cons_of_not_has absent.1, ih absent.2]

theorem cell_of_first {front back : List (Underlined κ)}
    (absent : ∀ e ∈ front, ¬e.columns.Has column) (has : u.columns.Has column) :
    cell g (front ++ u :: back) column = glyphAt g u column := by
  induction front with
  | nil => exact cell_cons_of_has has
  | cons e front ih =>
    rw [List.forall_mem_cons] at absent
    rw [List.cons_append, cell_cons_of_not_has absent.1, ih absent.2]

/-- In a column that one of the spans has, a mark is drawn. -/
theorem cell_mem_marks (member : u ∈ us) (has : u.columns.Has column) :
    cell g us column ∈ [g.upArrow, g.stem, g.underline] := by
  have mark (u : Underlined κ) : glyphAt g u column ∈ [g.upArrow, g.stem, g.underline] := by
    unfold glyphAt middleGlyph
    repeat' split
    all_goals simp
  induction us with
  | nil => exact absurd member List.not_mem_nil
  | cons e rest ih =>
    by_cases first : e.columns.Has column
    · rw [cell_cons_of_has first]
      exact mark e
    · rw [cell_cons_of_not_has first]
      rcases List.mem_cons.mp member with rfl | member
      · exact absurd has first
      · exact ih member

/-- A span is underlined from a column on up to its end. -/
theorem chars_run (start : Nat) :
    (run g u start).chars = stretch (glyphAt g u) start u.columns.stop := by
  have beside {first last : Nat} (apart : ∀ column, first ≤ column → column < last →
      column ≠ u.columns.middle) :
      stretch (glyphAt g u) first last = List.replicate (last - first) g.underline :=
    stretch_eq_replicate fun column le lt => if_neg (apart column le lt)
  unfold run
  dsimp only
  split
  · rename_i within
    have middle : glyphAt g u u.columns.middle = middleGlyph g u.callout := if_pos rfl
    have count : u.columns.stop - (u.columns.middle + 1) = u.columns.stop - u.columns.middle - 1 := by
      omega
    rw [← stretch_append within.1 (by omega), ← stretch_append (Nat.le_succ _) within.2,
      stretch_succ, middle, beside (by omega), beside (by omega), count]
    simp [Segment.chars, Stroke.chars, Stroke.once]
  · rename_i outside
    rw [beside (by omega)]
    simp [Segment.chars, Stroke.chars]

/-- In front of the spans nothing is drawn. -/
theorem stretch_cell_front {first last : Nat} (begin_behind : ∀ u ∈ us, last ≤ u.columns.start) :
    stretch (cell g us) first last = List.replicate (last - first) ' ' := by
  refine stretch_eq_replicate fun column _ lt => cell_of_absent fun u member has => ?_
  exact Nat.not_lt.mpr (begin_behind u member) (Nat.lt_of_le_of_lt has.1 lt)

/-- Behind a span those that follow are drawn as they are without it. -/
theorem stretch_cell_behind {first : Nat} (ended : u.columns.stop ≤ first) :
    stretch (cell g us) first (extent us) = stretch (cell g (u :: us)) first (extent (u :: us)) := by
  have count : extent (u :: us) - first = extent us - first := by
    rw [extent_cons]
    omega
  have same : stretch (cell g us) first (extent us) =
      stretch (cell g (u :: us)) first (extent us) := by
    refine stretch_congr fun column le _ => (cell_cons_of_not_has fun has => ?_).symm
    exact Nat.not_lt.mpr (Nat.le_trans ended le) has.2
  rw [same, stretch, stretch, count]

/-- Underlines that begin one after the other are drawn column by column. -/
theorem chars_row (ordered : us.Pairwise fun a b => a.columns.start ≤ b.columns.start)
    (wide : ∀ u ∈ us, u.columns.start < u.columns.stop) (done : Nat) :
    (row g done us).chars = stretch (cell g us) done (extent us) := by
  induction us generalizing done with
  | nil => simp [row, stretch, extent]
  | cons u rest ih =>
    rw [List.pairwise_cons] at ordered
    rw [List.forall_mem_cons] at wide
    have rest_eq := ih ordered.2 wide.2
    have extent_ge : u.columns.stop ≤ extent (u :: rest) := Nat.le_max_left _ _
    rw [row]
    split
    · rename_i begun
      -- what is not drawn in yet up to the underline is in front of all spans
      have blank : stretch (cell g (u :: rest)) done (max u.columns.start done) =
          List.replicate (max u.columns.start done - done) ' ' := by
        rcases Nat.le_total u.columns.start done with le | le
        · rw [Nat.max_eq_right le, Nat.sub_self]
          simp [stretch]
        · rw [Nat.max_eq_left le]
          exact stretch_cell_front (List.forall_mem_cons.mpr ⟨Nat.le_refl _, ordered.1⟩)
      have underlined : stretch (glyphAt g u) (max u.columns.start done) u.columns.stop =
          stretch (cell g (u :: rest)) (max u.columns.start done) u.columns.stop :=
        stretch_congr fun column le lt =>
          (cell_cons_of_has ⟨Nat.le_trans (Nat.le_max_left _ _) le, lt⟩).symm
      rw [Row.chars_cons, Row.chars_cons, Segment.chars_blank, Int.toNat_sub, ← blank, chars_run,
        underlined, rest_eq, stretch_cell_behind (Nat.le_refl _),
        stretch_append (Nat.le_of_lt begun) extent_ge,
        stretch_append (Nat.le_max_right _ _) (Nat.le_trans (Nat.le_of_lt begun) extent_ge)]
    · rename_i covered
      have ended : u.columns.stop ≤ done := by
        have := wide.1
        omega
      rw [rest_eq, stretch_cell_behind ended]

/-- A row of marks below a line.  It ends with the last of the spans; a column of theirs holds a
mark and every other one is blank, and the middle of a span holds its connector unless a span in
front has that column too. -/
structure Marks (g : Glyphs) (us : List (Underlined κ)) (cs : List Char) : Prop where
  stop_le : ∀ u ∈ us, u.columns.stop ≤ cs.length
  ends : ∃ u ∈ us, u.columns.stop = cs.length
  marked : ∀ column, (∃ u ∈ us, u.columns.Has column) →
    ∃ mark ∈ [g.upArrow, g.stem, g.underline], cs[column]? = some mark
  blank : ∀ column < cs.length, (∀ u ∈ us, ¬u.columns.Has column) → cs[column]? = some ' '
  connected : ∀ front u back, us = front ++ u :: back →
    (∀ e ∈ front, ¬e.columns.Has u.columns.middle) →
    cs[u.columns.middle]? = some (middleGlyph g u.callout)

theorem marks_row (nonempty : us ≠ [])
    (ordered : us.Pairwise fun a b => a.columns.start ≤ b.columns.start)
    (wide : ∀ u ∈ us, u.columns.start < u.columns.stop) : Marks g us (row g 0 us).chars := by
  have drawn {column : Nat} (lt : column < extent us) :
      (row g 0 us).chars[column]? = some (cell g us column) := by
    rw [chars_row ordered wide]
    exact getElem?_stretch lt
  have length_eq : (row g 0 us).chars.length = extent us := by
    rw [chars_row ordered wide, length_stretch, Nat.sub_zero]
  refine ⟨?_, ?_, ?_, ?_, ?_⟩
  · rw [length_eq]
    exact fun u member => stop_le_extent member
  · rw [length_eq]
    exact exists_stop_eq_extent nonempty
  · rintro column ⟨u, member, has⟩
    have lt := Nat.lt_of_lt_of_le has.2 (stop_le_extent member)
    exact ⟨_, cell_mem_marks member has, drawn lt⟩
  · intro column lt absent
    rw [drawn (length_eq ▸ lt), cell_of_absent absent]
  · rintro front u back rfl absent
    have member : u ∈ front ++ u :: back := List.mem_append_right _ List.mem_cons_self
    have has := Columns.has_middle (wide u member)
    have lt := Nat.lt_of_lt_of_le has.2 (stop_le_extent member)
    rw [drawn lt, cell_of_first absent has, glyphAt, if_pos rfl]

/-! ## Labels -/

section

omit [Coordinate κ]

/-- Up to the middle of the current underline there are bars and blanks. -/
theorem chars_bars {target cursor : Nat} (le : cursor ≤ target) (us : List (Underlined κ)) :
    (bars g target cursor us).chars.length = target - cursor ∧
      ∀ c ∈ (bars g target cursor us).chars, c = ' ' ∨ c = g.vertical := by
  induction us generalizing cursor with
  | nil => simp [bars]
  | cons u rest ih =>
    rw [bars]
    split
    · exact ih le
    · rename_i waits
      obtain ⟨length_eq, drawn⟩ := @ih (u.columns.middle + 1) (by omega)
      have bar : (Segment.mk u.callout.style [.once g.vertical]).chars = [g.vertical] := rfl
      rw [Row.chars_cons, Row.chars_cons, Segment.chars_blank, Int.toNat_sub, bar]
      refine ⟨?_, fun c member => ?_⟩
      · simp only [List.length_append, List.length_replicate, List.length_singleton, length_eq]
        omega
      · rcases List.mem_append.mp member with member | member
        · exact .inl (List.eq_of_mem_replicate member)
        · rcases List.mem_cons.mp member with rfl | member
          · exact .inr rfl
          · exact drawn c member

/-- The rows of a label that hangs from a column.  Behind bars and blanks the first row turns there
to the first line of the text, and the others go on there, each to one more line. -/
inductive Hangs (g : Glyphs) (column : Nat) : List (List Char) → List (List Char) → Prop
  | mk (lead : List Char) (length_eq : lead.length = column)
      (drawn : ∀ c ∈ lead, c = ' ' ∨ c = g.vertical) (first : List Char) (rest : List (List Char)) :
      Hangs g column (first :: rest)
        ((lead ++ g.bottomCorner :: g.horizontal :: g.horizontal :: ' ' :: first) ::
          rest.map fun line => lead ++ g.vertical :: ' ' :: ' ' :: ' ' :: line)

theorem hangs_labelRows (waiting : List (Underlined κ)) (u : Underlined κ) {text : List (List Char)}
    (nonempty : text ≠ []) :
    Hangs g u.columns.middle text ((labelRows g waiting u text).map Row.chars) := by
  obtain ⟨length_eq, drawn⟩ := chars_bars (g := g) (Nat.zero_le u.columns.middle) waiting
  cases text with
  | nil => exact absurd rfl nonempty
  | cons first rest =>
    have hangs := Hangs.mk _ length_eq drawn first rest
    simpa [labelRows, Segment.chars, Stroke.chars, Stroke.once, Function.comp_def] using hangs

/-- The labels hang one below the other, the last one first. -/
theorem exists_blocks (waiting us : List (Underlined κ))
    (nonempty : ∀ u ∈ us, ∀ text, u.callout.text = some text → text ≠ []) :
    ∃ blocks, (allLabelRows g waiting us).map Row.chars = blocks.flatten ∧
      List.Forall₂ (fun u block => ∃ text, u.callout.text = some text ∧
        Hangs g u.columns.middle text block)
        (us.filter (·.callout.text.isSome)).reverse blocks := by
  induction us generalizing waiting with
  | nil => exact ⟨[], rfl, .nil⟩
  | cons u rest ih =>
    rw [List.forall_mem_cons] at nonempty
    rw [allLabelRows]
    cases text_eq : u.callout.text with
    | none =>
      rw [List.filter_cons_of_neg (by simp [text_eq])]
      exact ih waiting nonempty.2
    | some text =>
      obtain ⟨blocks, rows_eq, hang⟩ := ih (u :: waiting) nonempty.2
      have hangs := hangs_labelRows (g := g) waiting.reverse u (nonempty.1 text text_eq)
      refine ⟨blocks ++ [(labelRows g waiting.reverse u text).map Row.chars], ?_, ?_⟩
      · rw [List.map_append, rows_eq, List.flatten_append, List.flatten_singleton]
      · rw [List.filter_cons_of_pos (by simp [text_eq]), List.reverse_cons]
        exact List.rel_append hang (.cons ⟨text, text_eq, hangs⟩ .nil)

end

theorem rows_of_ne_nil (nonempty : us ≠ []) :
    rows g us = row g 0 us :: allLabelRows g [] us :=
  if_neg fun empty => nonempty (List.isEmpty_iff.mp empty)

end Underline

/-! ## Below a drawn line -/

namespace Callout

variable {κ : Type} (palette : Palette) (index : Nat) (labels : List (Label κ))

theorem map_span_ofLabels : (ofLabels palette index labels).map span = labels.map Label.span := by
  induction labels generalizing index with
  | nil => rfl
  | cons l rest ih => rw [ofLabels, List.map_cons, List.map_cons, ih]

/-- The text of a label has at least one line. -/
theorem text_ne_nil : ∀ c ∈ ofLabels palette index labels, ∀ text, c.text = some text →
    text ≠ [] := by
  induction labels generalizing index with
  | nil => simp [ofLabels]
  | cons l rest ih =>
    rw [ofLabels, List.forall_mem_cons]
    refine ⟨fun text text_eq => ?_, ih (index + 1)⟩
    obtain ⟨whole, -, rfl⟩ := Option.map_eq_some_iff.mp text_eq
    exact Text.split_ne_nil _ _

end Callout

theorem Row.painted_undressed (r : Row) : r.undressed.painted = r.chars := by
  rw [Row.undressed, painted, List.flatMap_map, chars]
  exact congrArg r.flatMap (funext fun s => Style.paint_plain s.chars)

/-- Rows that have no styles to lose are painted as they are. -/
theorem Row.map_painted_of_undressed {rows : List Row} (bare : rows = rows.map undressed) :
    rows.map painted = rows.map chars := by
  conv => lhs; rw [bare]
  rw [List.map_map]
  exact congrArg (List.map · rows) (funext painted_undressed)

theorem Manner.undressed_of_plain {m : Manner} (plain : m.theme.palette = .none) :
    m.undressed = m := by
  rw [undressed, ← plain]

namespace Frame

section

variable {κ : Type} [Coordinate κ]

/-- The callouts of a window whose spans a line contains, below the line. -/
def contained (m : Manner) (f : Frame κ) (line : Line κ) : List (Underlined κ) :=
  ((f.callouts m).filter fun c => Relation.classify line c.span = .contained).map fun c =>
    ⟨c, .ofSpan m.tab line c.span⟩

/-- What stands in front of the rows below a line. -/
def underlineLead (m : Manner) (f : Frame κ) (placed : List (Placed κ)) : Row :=
  brokenEdge m f.numberWidth ++
    Gutter.row m.theme.glyphs f.layout.gutter (Gutter.origin f.layout.gutter) none 0 placed

variable {m : Manner} {source : Source} {w : Window κ} {f : Frame κ} {laid : LaidLine κ}

theorem window_of_ofWindow (framed : ofWindow m source w = .ok f) : f.window = w := by
  obtain ⟨contents, -, rfl⟩ := of_map_eq_ok framed
  rfl

/-- The callouts beside a drawn line are all those of the window, each with its relation to it. -/
theorem place_eq (framed : ofWindow m source w = .ok f) (drawn : laid ∈ f.layout.lines) :
    f.place m laid = (f.callouts m).map fun c => ⟨c, Relation.classify laid.line c.span⟩ := by
  obtain ⟨contents, -, rfl⟩ := of_map_eq_ok framed
  obtain ⟨line, -, rfl⟩ := List.mem_map.mp drawn
  have relations_eq : (w.labels.map Label.span).map (Relation.classify line) =
      (Callout.ofLabels m.theme.palette 0 w.labels).map fun c => Relation.classify line c.span := by
    rw [← Callout.map_span_ofLabels m.theme.palette 0, List.map_map]
    rfl
  unfold place callouts
  dsimp only
  rw [relations_eq, List.zipWith_map_right, List.zipWith_self]

/-- The callouts placed within a line are those whose spans the line contains. -/
theorem ofPlaced_place (framed : ofWindow m source w = .ok f) (drawn : laid ∈ f.layout.lines) :
    Underlined.ofPlaced m.tab laid.line (f.place m laid) = f.contained m laid.line := by
  rw [Underlined.ofPlaced, place_eq framed drawn, List.filter_map, List.map_map]
  rfl

/-- The text of a label below a line has at least one line. -/
theorem contained_text_ne_nil (f : Frame κ) (line : Line κ) :
    ∀ u ∈ f.contained m line, ∀ text, u.callout.text = some text → text ≠ [] := by
  intro u member
  obtain ⟨c, kept, rfl⟩ := List.mem_map.mp member
  exact Callout.text_ne_nil _ _ _ c (List.mem_of_mem_filter kept)

theorem painted_underlineRows (plain : m.theme.palette = .none) (f : Frame κ) (laid : LaidLine κ) :
    (f.underlineRows m laid.line (f.place m laid)).map Row.painted =
      (f.underlineRows m laid.line (f.place m laid)).map Row.chars := by
  have undressed := underlineRows_undressed m f laid.line (f.place m laid)
  rw [← place_undressed, Manner.undressed_of_plain plain] at undressed
  exact Row.map_painted_of_undressed undressed

end

variable {manner : Manner} {source : Source} {labels : List (Label Int)} {merge : Merge Int}
  {w : Window Int} {f : Frame Int} {laid : LaidLine Int}

theorem contained_ordered
    (ordered : f.window.labels.Pairwise fun a b => a.span.offset ≤ b.span.offset)
    (line : Line Int) :
    (f.contained manner line).Pairwise fun a b => a.columns.start ≤ b.columns.start := by
  rw [contained, List.pairwise_map]
  refine List.Pairwise.filter _ ?_
  have spans : ((f.callouts manner).map Callout.span).Pairwise fun s t => s.offset ≤ t.offset := by
    rw [callouts, Callout.map_span_ofLabels, List.pairwise_map]
    exact ordered
  rw [List.pairwise_map] at spans
  exact spans.imp fun le => Columns.start_mono manner.tab line le

theorem contained_wide (f : Frame Int) (line : Line Int) :
    ∀ u ∈ f.contained manner line, u.columns.start < u.columns.stop := by
  intro u member
  obtain ⟨c, -, rfl⟩ := List.mem_map.mp member
  exact Columns.start_lt_stop manner.tab line c.span

/-- Below each drawn line, behind what stands in front of all its rows, there is one row of marks
for the spans that the line contains, and then the labels hang one below the other, the last one
first. -/
theorem underlines_mark_columns
    (gathered : Merge.ofLabels source.bytes labels manner.before manner.after = .ok merge)
    (member : w ∈ merge.windows) (framed : ofWindow manner source w = .ok f)
    (drawn : laid ∈ f.layout.lines) (plain : manner.theme.palette = .none) :
    (f.contained manner laid.line = [] →
      f.underlineRows manner laid.line (f.place manner laid) = []) ∧
    (f.contained manner laid.line ≠ [] → ∃ marks blocks,
      (f.underlineRows manner laid.line (f.place manner laid)).map Row.painted =
        (marks :: blocks.flatten).map
          ((f.underlineLead manner (f.place manner laid)).chars ++ ·) ∧
      Underline.Marks manner.theme.glyphs (f.contained manner laid.line) marks ∧
      List.Forall₂ (fun u block => ∃ text, u.callout.text = some text ∧
        Underline.Hangs manner.theme.glyphs u.columns.middle text block)
        ((f.contained manner laid.line).filter (·.callout.text.isSome)).reverse blocks) := by
  have rows_eq : f.underlineRows manner laid.line (f.place manner laid) =
      (Underline.rows manner.theme.glyphs (f.contained manner laid.line)).map
        (f.underlineLead manner (f.place manner laid) ++ ·) := by
    rw [← ofPlaced_place framed drawn]
    rfl
  refine ⟨fun none_contained => ?_, fun some_contained => ?_⟩
  · rw [rows_eq, none_contained]
    rfl
  · have window_eq := window_of_ofWindow framed
    have ordered := Merge.window_offsets_ascending gathered w member
    rw [← window_eq] at ordered
    have marks := Underline.marks_row (g := manner.theme.glyphs) some_contained
      (contained_ordered ordered laid.line) (contained_wide f laid.line)
    obtain ⟨blocks, blocks_eq, hang⟩ := Underline.exists_blocks (g := manner.theme.glyphs) []
      (f.contained manner laid.line) (contained_text_ne_nil f laid.line)
    refine ⟨_, blocks, ?_, marks, hang⟩
    rw [painted_underlineRows plain, rows_eq, Underline.rows_of_ne_nil some_contained, ← blocks_eq,
      ← List.map_cons, List.map_map, List.map_map]
    exact congrArg (List.map · _) (funext fun r => Row.chars_append _ r)

/-- Labels on one line: the first has a text of two lines, and the others are within it. -/
def nested : List (Label Int) :=
  [⟨⟨0, 5⟩, some "outer\nmore", none⟩, ⟨⟨1, 3⟩, some "inner", none⟩, ⟨⟨3, 0⟩, none, none⟩]

/-- Labels within each other below a line with a tab. -/
theorem underlines_mark_columns_nested :
    ∃ merge w f laid,
      Merge.ofLabels (Source.ofText "ab\tcd").bytes nested (0 : Nat) 0 = .ok merge ∧
      w ∈ merge.windows ∧
      ofWindow ⟨0, 0, 4, .unicodePlain, .plain⟩ (.ofText "ab\tcd") w = .ok f ∧
      laid ∈ f.layout.lines ∧ Theme.unicodePlain.palette = .none ∧
      (f.contained ⟨0, 0, 4, .unicodePlain, .plain⟩ laid.line).length = 3 ∧
      ∃ marks, Underline.Marks .unicode
        (f.contained ⟨0, 0, 4, .unicodePlain, .plain⟩ laid.line) marks := by
  have found {ε α : Type} {x : Except ε α} {a : α} (some_eq : x.toOption = some a) : x = .ok a := by
    cases x with
    | error e => cases some_eq
    | ok b =>
      cases some_eq
      rfl
  have sorted : Label.sort nested = nested := by
    rw [Label.sort_eq_mergeSort]
    exact List.mergeSort_of_pairwise (by decide)
  have computed : ((Merge.ofSorted (Source.ofText "ab\tcd").bytes (0 : Nat) 0 none
      nested).toOption.bind fun merge => merge.windows.head?.bind fun w =>
      (ofWindow ⟨0, 0, 4, .unicodePlain, .plain⟩ (.ofText "ab\tcd") w).toOption.bind fun f =>
        f.layout.lines.head?.map fun laid =>
          (f.contained ⟨0, 0, 4, .unicodePlain, .plain⟩ laid.line).length) = some 3 := by
    decide +kernel
  simp only [Option.bind_eq_some_iff, Option.map_eq_some_iff] at computed
  obtain ⟨merge, gathered, w, first, f, framed, laid, drawn, length_eq⟩ := computed
  have gathered : Merge.ofLabels (Source.ofText "ab\tcd").bytes nested (0 : Nat) 0 = .ok merge := by
    rw [Merge.ofLabels, sorted, found gathered]
  have member := List.mem_of_head? first
  have framed := found framed
  have drawn := List.mem_of_head? drawn
  obtain ⟨marks, -, -, drawn_marks, -⟩ :=
    (@underlines_mark_columns ⟨0, 0, 4, .unicodePlain, .plain⟩ (.ofText "ab\tcd") nested merge w f
      laid gathered member framed drawn rfl).2 (List.ne_nil_of_length_pos (by omega))
  exact ⟨merge, w, f, laid, gathered, member, framed, drawn, rfl, length_eq, marks, drawn_marks⟩

end Frame

end Marginalia
