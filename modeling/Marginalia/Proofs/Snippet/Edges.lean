import Marginalia.Proofs.Snippet.Drawable
import Marginalia.Proofs.Snippet.Underlines
import Mathlib.Data.Nat.Digits.Defs

/-!
# Rows that line up

Every row of a frame begins with the columns of the line numbers, the edge of the frame and its
gutter.  The numbers of the lines grow, so none has more digits than the last one.  A gutter is
filled up to its width whatever runs in it: an arrow takes all columns that the bars in front of it
have left, and so does the elbow of a label at the end of its span.  So the text of a line and the
lines of such a label begin in columns that the window alone decides.
-/

namespace Marginalia

variable {κ : Type}

/-! ## Gutters -/

namespace Gutter

variable {g : Glyphs} {room width waiting : Nat} {placed : List (Placed κ)}

@[simp] theorem length_chars_bar (c : Callout κ) : (bar g c).chars.length = 1 := rfl

theorem length_chars_arrow (c : Callout κ) (corner : Char) (run : Int) :
    (arrow g c corner run).chars.length = run.toNat + 2 := by
  simp [arrow, Segment.chars, Stroke.chars, Stroke.once]

/-- The way of a connector to its label: a corner and a run to the right. -/
def elbow (g : Glyphs) (c : Callout κ) (run : Int) : Segment :=
  ⟨c.style, [.once g.bottomCorner, .repeated g.horizontal run]⟩

theorem length_chars_elbow (c : Callout κ) (run : Int) :
    (elbow g c run).chars.length = run.toNat + 1 := by
  simp [elbow, Segment.chars, Stroke.chars, Stroke.once]

/-- The connectors beside a line with the blanks behind them fill the gutter. -/
theorem length_besideLine {depth : Nat}
    (fits : depth + placed.countP (·.relation.isMultiLine) ≤ room) :
    depth + (besideLine g room depth placed).chars.length = room + 3 := by
  induction placed generalizing depth with
  | nil =>
    rw [List.countP_nil] at fits
    simp only [besideLine, Row.chars_cons, Row.chars_nil, Segment.chars_blank, List.append_nil,
      List.length_replicate]
    omega
  | cons p rest ih =>
    rw [List.countP_cons] at fits
    -- an arrow takes all the room that is left, a bar one column of it
    cases related : p.relation with
    | starts | ends =>
      have connects : p.relation.isMultiLine = true := by rw [related]; rfl
      rw [if_pos connects] at fits
      simp only [besideLine, related, Row.chars_cons, Row.chars_nil, Segment.chars_blank,
        List.append_nil, List.length_append, List.length_replicate, length_chars_arrow]
      omega
    | passes =>
      have connects : p.relation.isMultiLine = true := by rw [related]; rfl
      rw [if_pos connects] at fits
      have behind := @ih (depth + 1) (by omega)
      simp only [besideLine, related, Row.chars_cons, List.length_append, length_chars_bar]
      omega
    | contained | none =>
      have away : ¬p.relation.isMultiLine = true := by rw [related]; exact Bool.false_ne_true
      rw [if_neg away] at fits
      simpa only [besideLine, related] using ih fits

/-- The gutter of a source line is as wide as what stands in front of its text. -/
theorem length_line (fits : placed.countP (·.relation.isMultiLine) ≤ room) :
    (line g room placed).chars.length = origin room := by
  unfold line origin
  split
  · rfl
  · have filled := @length_besideLine _ g room placed 0 (by omega)
    omega

/-- Without an elbow a row below a line is filled up to the width that is asked for. -/
theorem length_besideRow {depth : Nat}
    (fits : depth + placed.countP (·.relation.isMultiLine) ≤ width) :
    depth + (besideRow g room width none waiting depth placed).chars.length = width := by
  induction placed generalizing depth with
  | nil =>
    rw [List.countP_nil] at fits
    simp only [besideRow, Row.chars_cons, Row.chars_nil, Segment.chars_blank, List.append_nil,
      List.length_replicate]
    omega
  | cons p rest ih =>
    rw [List.countP_cons] at fits
    rw [besideRow, if_neg (Option.some_ne_none _).symm]
    split
    · rename_i connects
      rw [if_pos connects] at fits
      have behind := @ih (depth + 1) (by omega)
      rw [Row.chars_cons, List.length_append]
      split
      · rw [length_chars_bar]
        omega
      · rw [Segment.chars_blank, List.length_replicate]
        omega
    · rename_i away
      rw [if_neg away] at fits
      exact ih fits

theorem length_row (fits : placed.countP (·.relation.isMultiLine) ≤ width) :
    (row g room width none waiting placed).chars.length = width := by
  unfold row
  split
  · simp
  · have filled := @length_besideRow _ g room width waiting placed 0 (by omega)
    omega

/-- With an elbow it is filled up to where the elbow leads. -/
theorem length_besideRow_elbow {depth target : Nat}
    (fits : depth + placed.countP (·.relation.isMultiLine) ≤ room) (narrow : width ≤ room + 3)
    (present : ∃ p ∈ placed, p.relation.isMultiLine = true ∧ p.callout.index = target) :
    depth + (besideRow g room width (some target) waiting depth placed).chars.length =
      room + 3 := by
  induction placed generalizing depth with
  | nil => simp at present
  | cons p rest ih =>
    rw [List.countP_cons] at fits
    rw [List.exists_mem_cons_iff] at present
    rw [besideRow]
    split
    · rename_i connects
      rw [if_pos connects] at fits
      split
      · have filled := length_chars_elbow (g := g) p.callout (room - depth + 2)
        rw [elbow] at filled
        simp only [Row.chars_cons, Row.chars_nil, Segment.chars_blank, List.append_nil,
          List.length_append, List.length_replicate, filled]
        omega
      · rename_i other
        have behind := @ih (depth + 1) (by omega)
          (present.resolve_left fun here => other (congrArg some here.2.symm))
        rw [Row.chars_cons, List.length_append]
        split
        · rw [length_chars_bar]
          omega
        · rw [Segment.chars_blank, List.length_replicate]
          omega
    · rename_i away
      rw [if_neg away] at fits
      exact ih fits (present.resolve_left fun here => away here.1)

theorem length_elbow {p : Placed κ} (fits : placed.countP (·.relation.isMultiLine) ≤ room)
    (member : p ∈ placed) (connects : p.relation.isMultiLine = true) :
    (row g room (room + 1) (some p.callout.index) waiting placed).chars.length = room + 3 := by
  have pos : 0 < placed.countP (·.relation.isMultiLine) :=
    List.countP_pos_iff.mpr ⟨p, member, connects⟩
  have filled := @length_besideRow_elbow _ g room (room + 1) waiting placed 0 p.callout.index
    (by omega) (by omega) ⟨p, member, connects, rfl⟩
  rw [row, if_neg (by omega)]
  omega

end Gutter

/-! ## Edges -/

namespace Frame

/-- A smaller number has no more digits. -/
theorem length_digits_mono {n k : Nat} (le : n ≤ k) : (digits n).length ≤ (digits k).length := by
  have digits_eq (n : Nat) : digits n = Nat.toDigits 10 n := by
    simp [digits]
  have pos : 0 < (Nat.toDigits 10 k).length := Nat.length_toDigits_pos
  have bounded := (Nat.length_toDigits_le_iff (by decide) pos).mp (Nat.le_refl _)
  rw [digits_eq, digits_eq, Nat.length_toDigits_le_iff (by decide) pos]
  exact Nat.lt_of_le_of_lt le bounded

theorem getElem?_edge {front rest : List Char} {glyph : Char} {column : Nat}
    (length_eq : front.length = column) : (front ++ glyph :: rest)[column]? = some glyph := by
  subst length_eq
  simp

variable {m : Manner}

/-- In front of a source line the edge stands behind its number. -/
theorem chars_numberedEdge {width number : Nat} (fits : (digits number).length ≤ width) :
    ∃ front, front.length = width + 2 ∧
      (numberedEdge m width number).chars = front ++ [m.theme.glyphs.vertical, ' '] := by
  refine ⟨' ' :: (List.replicate (width - (digits number).length) ' ' ++ digits number ++ [' ']),
    ?_, ?_⟩
  · simp only [List.length_cons, List.length_append, List.length_replicate, List.length_nil]
    omega
  · simp [numberedEdge, Segment.chars, Stroke.chars, Stroke.once, Segment.plain,
      Segment.blank]

/-- Beside all other rows it stands behind blanks. -/
theorem chars_brokenEdge (width : Nat) :
    ∃ front, front.length = width + 2 ∧
      (brokenEdge m width).chars = front ++ [m.theme.glyphs.dotted, ' '] := by
  refine ⟨' ' :: (List.replicate width ' ' ++ [' ']), ?_, ?_⟩
  · simp
  · simp [brokenEdge, Segment.chars, Stroke.chars, Stroke.once, Segment.plain,
      Segment.blank]

theorem getElem?_of_brokenEdge (width : Nat) (rest : Row) :
    (Row.chars (brokenEdge m width ++ rest))[width + 2]? = some m.theme.glyphs.dotted := by
  obtain ⟨front, length_eq, edge_eq⟩ := chars_brokenEdge (m := m) width
  rw [Row.chars_append, edge_eq, List.append_assoc]
  exact getElem?_edge length_eq

theorem length_brokenEdge (width : Nat) : (brokenEdge m width).chars.length = width + 4 := by
  obtain ⟨front, length_eq, edge_eq⟩ := chars_brokenEdge (m := m) width
  rw [edge_eq, List.length_append, length_eq]
  rfl

/-! ## Labels at the end of their spans -/

variable {f : Frame κ} {placed : List (Placed κ)} {p : Placed κ}

/-- The lines of the text of a label at the end of its span begin in one column: the first one
behind the elbow, the others below it. -/
theorem map_chars_endRows (fits : placed.countP (·.relation.isMultiLine) ≤ f.layout.gutter)
    (member : p ∈ placed) (connects : p.relation.isMultiLine = true) (text : List (List Char)) :
    ∃ lead below, lead.length = f.numberWidth + 4 + (f.layout.gutter + 5) ∧
      below.length = f.numberWidth + 4 + (f.layout.gutter + 5) ∧
      (endRows m f placed p.callout text).map Row.chars =
        (lead ++ text.headD []) :: text.tail.map (below ++ ·) := by
  have edge := length_brokenEdge (m := m) f.numberWidth
  have elbow : (Gutter.row m.theme.glyphs f.layout.gutter (f.layout.gutter + 1)
      (some p.callout.index) p.callout.index placed).chars.length = f.layout.gutter + 3 :=
    Gutter.length_elbow fits member connects
  have beside : (Gutter.row m.theme.glyphs f.layout.gutter (f.layout.gutter + 3) none
      (p.callout.index + 1) placed).chars.length = f.layout.gutter + 3 :=
    Gutter.length_row (by omega)
  refine ⟨(brokenEdge m f.numberWidth).chars ++
      (Gutter.row m.theme.glyphs f.layout.gutter (f.layout.gutter + 1) (some p.callout.index)
        p.callout.index placed).chars ++ [m.theme.glyphs.horizontal, ' '],
    (brokenEdge m f.numberWidth).chars ++
      (Gutter.row m.theme.glyphs f.layout.gutter (f.layout.gutter + 3) none (p.callout.index + 1)
        placed).chars ++ [' ', ' '], ?_, ?_, ?_⟩
  · simp only [List.length_append, edge, elbow, List.length_cons, List.length_nil]
    omega
  · simp only [List.length_append, edge, beside, List.length_cons, List.length_nil]
    omega
  · simp [endRows, Segment.chars, Stroke.chars, Stroke.once, Segment.blank, Function.comp_def]

variable [Coordinate κ]

/-! ## Frames -/

/-- The rows of a source line and those below it, in line with each other. -/
structure LinedUp (m : Manner) (f : Frame κ) (language : Option String) (laid : LaidLine κ) :
    Prop where
  number_le : (digits laid.line.number).length ≤ f.numberWidth
  source_edge : (sourceRow m f language laid.line (f.place m laid)).chars[f.numberWidth + 2]? =
    some m.theme.glyphs.vertical
  below_edge : ∀ r ∈ f.underlineRows m laid.line (f.place m laid) ++
    f.allEndRows m (f.place m laid), r.chars[f.numberWidth + 2]? = some m.theme.glyphs.dotted
  source_gutter : (Gutter.line m.theme.glyphs f.layout.gutter (f.place m laid)).chars.length =
    Gutter.origin f.layout.gutter
  below_gutter : (Gutter.row m.theme.glyphs f.layout.gutter (Gutter.origin f.layout.gutter) none 0
    (f.place m laid)).chars.length = Gutter.origin f.layout.gutter
  elbow : ∀ p ∈ f.place m laid, p.relation = .ends →
    (Gutter.row m.theme.glyphs f.layout.gutter (f.layout.gutter + 1) (some p.callout.index)
      p.callout.index (f.place m laid)).chars.length = f.layout.gutter + 3
  end_label : ∀ p ∈ f.place m laid, p.relation = .ends → ∀ text, p.callout.text = some text →
    ∃ lead below, lead.length = f.numberWidth + 4 + (f.layout.gutter + 5) ∧
      below.length = f.numberWidth + 4 + (f.layout.gutter + 5) ∧
      (f.endRows m (f.place m laid) p.callout text).map Row.chars =
        (lead ++ text.headD []) :: text.tail.map (below ++ ·)

variable {source : Source} {w : Window κ} {laid : LaidLine κ}

theorem header_edge (name : Option String) :
    (header m name f).chars[f.numberWidth + 2]? = some m.theme.glyphs.topCorner := by
  have front : (List.replicate (f.numberWidth + 2) ' ').length = f.numberWidth + 2 :=
    List.length_replicate
  unfold header
  rw [List.append_assoc, List.cons_append, Row.chars_cons, Segment.chars_blank]
  exact getElem?_edge front

omit [Coordinate κ] in
theorem footer_edge :
    (footer m f).chars[f.numberWidth + 2]? = some m.theme.glyphs.bottomCorner := by
  have front : (List.replicate (f.numberWidth + 2) ' ').length = f.numberWidth + 2 :=
    List.length_replicate
  rw [footer, Row.chars_cons, Segment.chars_blank]
  exact getElem?_edge front

/-- The numbers of the lines grow, so the last one has the most digits. -/
theorem number_le (framed : ofWindow m source w = .ok f) (member : laid ∈ f.layout.lines) :
    (digits laid.line.number).length ≤ f.numberWidth := by
  obtain ⟨c, -, rfl⟩ := of_map_eq_ok framed
  have ascending := Line.numbers_scan_ascending c source.size
  obtain ⟨line, scanned, rfl⟩ := List.mem_map.mp member
  have nonempty : Line.scan c source.size ≠ [] := List.ne_nil_of_mem scanned
  have le : line.number ≤ ((Line.scan c source.size).getLast nonempty).number := by
    rw [← List.dropLast_concat_getLast nonempty, List.map_append, List.pairwise_append] at ascending
    rw [← List.dropLast_concat_getLast nonempty, List.mem_append, List.mem_singleton] at scanned
    rcases scanned with front | rfl
    · exact Nat.le_of_lt (ascending.2.2 _ (List.mem_map_of_mem front) _ (by simp))
    · exact Nat.le_refl _
  have width_eq : numberWidth (⟨w, c, Layout.ofLines (Line.scan c source.size)
      (w.labels.map Label.span)⟩ : Frame κ) =
        (digits ((Line.scan c source.size).getLast nonempty).number).length := by
    simp [numberWidth, Layout.ofLines, List.getLast?_eq_some_getLast nonempty]
  rw [width_eq]
  exact length_digits_mono le

theorem below_edge (f : Frame κ) (laid : LaidLine κ) :
    ∀ r ∈ f.underlineRows m laid.line (f.place m laid) ++ f.allEndRows m (f.place m laid),
      r.chars[f.numberWidth + 2]? = some m.theme.glyphs.dotted := by
  intro r member
  rcases List.mem_append.mp member with member | member
  · obtain ⟨marks, -, rfl⟩ := List.mem_map.mp member
    rw [List.append_assoc]
    exact getElem?_of_brokenEdge _ _
  · obtain ⟨p, -, member⟩ := List.mem_flatMap.mp member
    split at member
    · rcases List.mem_cons.mp member with rfl | member
      · rw [List.append_assoc]
        exact getElem?_of_brokenEdge _ _
      · obtain ⟨line, -, rfl⟩ := List.mem_map.mp member
        rw [List.append_assoc]
        exact getElem?_of_brokenEdge _ _
    · exact absurd member List.not_mem_nil

theorem linedUp (framed : ofWindow m source w = .ok f) (member : laid ∈ f.layout.lines)
    (language : Option String) : f.LinedUp m language laid := by
  have fits := place_fits (m := m) (roomy_of_ofWindow framed) member
  have number_le := number_le framed member
  refine ⟨number_le, ?_, below_edge f laid, Gutter.length_line fits, ?_, fun p placed ends => ?_,
    fun p placed ends text _ => ?_⟩
  · obtain ⟨front, length_eq, edge_eq⟩ := chars_numberedEdge (m := m) number_le
    rw [sourceRow, List.append_assoc, Row.chars_append, edge_eq, List.append_assoc]
    exact getElem?_edge length_eq
  · refine Gutter.length_row ?_
    unfold Gutter.origin
    split <;> omega
  · exact Gutter.length_elbow fits placed (by rw [ends]; rfl)
  · exact map_chars_endRows fits placed (by rw [ends]; rfl) text

/-- Whatever labels a window has, the rows of its frame line up.  Without styles they are painted as
they are; the edge of the frame stands in the same column of all of them, the gutters beside and
below a source line are equally wide, and so are those in front of the lines of a label at the end
of its span. -/
theorem rows_line_up (framed : ofWindow m source w = .ok f) :
    (m.theme.palette = .none →
      (f.rows m source).map Row.painted = (f.rows m source).map Row.chars) ∧
    (∀ last, f.layout.lines.getLast? = some last →
      f.numberWidth = (digits last.line.number).length) ∧
    (header m source.name f).chars[f.numberWidth + 2]? = some m.theme.glyphs.topCorner ∧
    (∀ laid ∈ f.layout.lines, f.LinedUp m source.language laid) ∧
    (footer m f).chars[f.numberWidth + 2]? = some m.theme.glyphs.bottomCorner := by
  refine ⟨fun plain => ?_, fun last found => ?_, header_edge _, fun laid member => ?_, footer_edge⟩
  · have undressed := rows_undressed m f source
    rw [Manner.undressed_of_plain plain] at undressed
    exact Row.map_painted_of_undressed undressed
  · rw [numberWidth, found]
  · exact linedUp framed member source.language

/-- The window of two labels on three lines, the second within the first and ending with it. -/
def twoBlocks : Window Int where
  span := ⟨0, 6⟩
  labels := [⟨⟨0, 6⟩, some "outer\nmore", none⟩, ⟨⟨2, 4⟩, some "inner", none⟩]
  anchor := ⟨⟨0, 6⟩, some "outer\nmore", none⟩
  line := 0
  column := 0
  contents := ⟨(Source.ofText "a\nbc\nd\n").bytes, 0, 7, 0, 0, 3⟩

theorem rows_line_up_two_blocks :
    ∃ f, ofWindow ⟨0, 0, 4, .unicodePlain, .plain⟩ (.ofText "a\nbc\nd\n") twoBlocks = .ok f ∧
      f.layout.gutter = 2 ∧ f.layout.lines.length = 3 ∧
      ∀ laid ∈ f.layout.lines, f.LinedUp ⟨0, 0, 4, .unicodePlain, .plain⟩ none laid := by
  obtain ⟨f, framed, gutter_eq, count⟩ : ∃ f,
      ofWindow ⟨0, 0, 4, .unicodePlain, .plain⟩ (.ofText "a\nbc\nd\n") twoBlocks = .ok f ∧
        f.layout.gutter = 2 ∧ f.layout.lines.length = 3 :=
    ⟨_, rfl, by decide +kernel, by decide +kernel⟩
  exact ⟨f, framed, gutter_eq, count, (rows_line_up framed).2.2.2.1⟩

end Frame

end Marginalia
