import Marginalia.Proofs.Number.Text
import Marginalia.Proofs.Snippet.Origin
import Marginalia.Proofs.Snippet.Undressed
import Marginalia.Proofs.Text.Column
import Marginalia.Proofs.Text.Filling

/-!
# Snippets without escapes

Where neither the labels nor the source hold an escape, no stroke of a snippet does.  So each row of
the snippet is the row without styles with renditions put in.
-/

namespace Marginalia

open Text (esc Adorned)

/-! ## Bytes and texts -/

theorem Utf8.ofByte_esc : OfByte 0x1B esc := ⟨rfl, by decide, by decide⟩

theorem Utf8.esc_not_mem_decode {bytes : List UInt8} (unescaped : 0x1B ∉ bytes) :
    esc ∉ decode bytes := by
  have decoded : esc ∉ decodeFrom none bytes :=
    ofByte_esc.not_mem_decodeFrom (by simp) unescaped
  unfold decode
  cases text_eq : decodeFrom none bytes with
  | nil => exact List.not_mem_nil
  | cons c rest =>
    rw [text_eq] at decoded
    rw [withoutMark]
    split
    · exact List.not_mem_of_not_mem_cons decoded
    · exact decoded

theorem Text.esc_not_mem_expandTabs (tab : Nat) {cs : List Char} (unescaped : esc ∉ cs) :
    esc ∉ expandTabs tab cs := by
  have expanded (column : Nat) : esc ∉ expandTabsFrom tab column cs := by
    induction cs generalizing column with
    | nil => exact List.not_mem_nil
    | cons c rest ih =>
      rw [List.mem_cons, not_or] at unescaped
      rw [expandTabsFrom, List.mem_append, not_or]
      refine ⟨?_, ih unescaped.2 _⟩
      split
      · exact fun member => absurd (List.eq_of_mem_replicate member) (by decide)
      · simpa using unescaped.1
  rw [expandTabs_eq]
  exact expanded 0

theorem Text.esc_not_mem_split {separator : Char} {cs : List Char} (unescaped : esc ∉ cs) :
    ∀ piece ∈ split separator cs, esc ∉ piece := fun _ member inside =>
  unescaped (mem_of_mem_split member inside)

@[simp] theorem Highlighter.paint_plain (line : List Char) (language : Option String) :
    plain.paint line language = line := List.append_nil line

/-! ## Glyphs, strokes and rows -/

/-- The characters that a drawing is made of. -/
def Glyphs.chars (g : Glyphs) : List Char :=
  [g.horizontal, g.vertical, g.dotted, g.upArrow, g.rightArrow, g.topCorner, g.bottomCorner,
    g.openBox, g.closeBox, g.branch, g.stem, g.underline, g.error, g.warning, g.advice]

/-- Whether no glyph is an escape. -/
def Glyphs.Unescaped (g : Glyphs) : Prop := esc ∉ g.chars

theorem Glyphs.Unescaped.each {g : Glyphs} (drawn : g.Unescaped) :
    esc ≠ g.horizontal ∧ esc ≠ g.vertical ∧ esc ≠ g.dotted ∧ esc ≠ g.upArrow ∧
      esc ≠ g.rightArrow ∧ esc ≠ g.topCorner ∧ esc ≠ g.bottomCorner ∧ esc ≠ g.openBox ∧
      esc ≠ g.closeBox ∧ esc ≠ g.branch ∧ esc ≠ g.stem ∧ esc ≠ g.underline ∧ esc ≠ g.error ∧
      esc ≠ g.warning ∧ esc ≠ g.advice := by
  simpa [Unescaped, chars] using drawn

theorem Glyphs.unescaped_unicode : unicode.Unescaped := by unfold Unescaped; decide

theorem Glyphs.unescaped_ascii : ascii.Unescaped := by unfold Unescaped; decide

/-- Whether the characters of a segment hold no escape. -/
def Segment.Unescaped (s : Segment) : Prop := ∀ stroke ∈ s.strokes, esc ∉ stroke.chars

/-- Whether the characters of a row hold no escape. -/
def Row.Unescaped (r : Row) : Prop := ∀ s ∈ r, s.Unescaped

@[simp] theorem Stroke.esc_mem_repeated (glyph : Char) (count : Int) :
    esc ∈ (repeated glyph count).chars ↔ 0 < count ∧ esc = glyph := by
  rw [chars, List.mem_replicate]
  exact and_congr_left' (by omega)

@[simp] theorem Stroke.esc_mem_once (glyph : Char) : esc ∈ (once glyph).chars ↔ esc = glyph := by
  simp [once]

@[simp] theorem Stroke.esc_mem_text (cs : List Char) : esc ∈ (text cs).chars ↔ esc ∈ cs := Iff.rfl

@[simp] theorem Segment.unescaped_mk (style : Style) (strokes : List Stroke) :
    (Segment.mk style strokes).Unescaped ↔ ∀ stroke ∈ strokes, esc ∉ stroke.chars := Iff.rfl

@[simp] theorem Segment.unescaped_plain (strokes : List Stroke) :
    (plain strokes).Unescaped ↔ ∀ stroke ∈ strokes, esc ∉ stroke.chars := Iff.rfl

@[simp] theorem Segment.unescaped_blank (count : Int) : (blank count).Unescaped := by
  simp [blank, Text.esc_ne_space]

@[simp] theorem Row.unescaped_nil : Row.Unescaped [] := by simp [Row.Unescaped]

@[simp] theorem Row.unescaped_cons (s : Segment) (r : Row) :
    Row.Unescaped (s :: r) ↔ s.Unescaped ∧ r.Unescaped := List.forall_mem_cons

@[simp] theorem Row.unescaped_append (r t : Row) :
    Row.Unescaped (r ++ t) ↔ r.Unescaped ∧ t.Unescaped := List.forall_mem_append

/-- A style puts renditions into a segment. -/
theorem Segment.Unescaped.adorned {s : Segment} (unescaped : s.Unescaped) :
    Adorned s.painted s.undressed.painted := by
  have chars : esc ∉ s.chars := fun member => by
    obtain ⟨stroke, inside, member⟩ := List.mem_flatMap.mp member
    exact unescaped stroke inside member
  have bare : s.undressed.painted = s.chars := Style.paint_plain _
  rw [bare]
  exact s.style.paint_adorned chars

theorem Row.Unescaped.adorned {r : Row} (unescaped : r.Unescaped) :
    Adorned r.painted r.undressed.painted := by
  induction r with
  | nil => exact .nil
  | cons s rest ih =>
    rw [Row.unescaped_cons] at unescaped
    exact unescaped.1.adorned.append (ih unescaped.2)

/-! ## Labels and callouts -/

variable {κ : Type}

/-- Whether the text of a label holds no escape. -/
def Label.Unescaped (l : Label κ) : Prop := ∀ text ∈ l.text, esc ∉ text.toList

/-- Whether no line of the text of a callout holds an escape. -/
def Callout.Unescaped (c : Callout κ) : Prop := ∀ text ∈ c.text, ∀ line ∈ text, esc ∉ line

theorem Callout.unescaped_ofLabels (palette : Palette) (index : Nat) {labels : List (Label κ)}
    (unescaped : ∀ l ∈ labels, l.Unescaped) :
    ∀ c ∈ ofLabels palette index labels, c.Unescaped := by
  induction labels generalizing index with
  | nil => simp [ofLabels]
  | cons l rest ih =>
    rw [List.forall_mem_cons] at unescaped
    refine List.forall_mem_cons.mpr ⟨?_, ih _ unescaped.2⟩
    intro lines found
    obtain ⟨text, given, rfl⟩ := Option.map_eq_some_iff.mp found
    exact Text.esc_not_mem_split (unescaped.1 text given)

theorem Callout.Unescaped.first {c : Callout κ} (unescaped : c.Unescaped) {text : List (List Char)}
    (told : c.text = some text) : esc ∉ text.head?.getD [] := by
  cases text with
  | nil => exact List.not_mem_nil
  | cons line rest => exact unescaped _ told line List.mem_cons_self

theorem Callout.Unescaped.others {c : Callout κ} (unescaped : c.Unescaped) {text : List (List Char)}
    (told : c.text = some text) : ∀ line ∈ text.tail, esc ∉ line := fun line member =>
  unescaped _ told line (List.mem_of_mem_tail member)

/-! ## Gutters -/

namespace Gutter

variable {g : Glyphs} (drawn : g.Unescaped) {room width waiting : Nat} {target : Option Nat}

include drawn

theorem besideLine_unescaped (depth : Nat) (placed : List (Placed κ)) :
    Row.Unescaped (besideLine g room depth placed) := by
  induction placed generalizing depth with
  | nil => simp [besideLine]
  | cons p rest ih =>
    have corner : esc ≠ endCorner g p.callout := by
      unfold endCorner
      split <;> simp [drawn.each]
    cases related : p.relation <;> simp [besideLine, related, arrow, bar, ih, drawn.each, corner]

theorem line_unescaped (placed : List (Placed κ)) : Row.Unescaped (line g room placed) := by
  unfold line
  split
  · exact Row.unescaped_nil
  · exact besideLine_unescaped drawn 0 placed

theorem besideRow_unescaped (depth : Nat) (placed : List (Placed κ)) :
    Row.Unescaped (besideRow g room width target waiting depth placed) := by
  induction placed generalizing depth with
  | nil => simp [besideRow]
  | cons p rest ih =>
    rw [besideRow]
    split
    · split
      · simp [drawn.each]
      · split <;> simp [bar, drawn.each, ih]
    · exact ih depth

theorem row_unescaped (placed : List (Placed κ)) :
    Row.Unescaped (row g room width target waiting placed) := by
  unfold row
  split
  · simp
  · exact besideRow_unescaped drawn 0 placed

end Gutter

/-! ## Underlines -/

namespace Underline

variable {g : Glyphs} (drawn : g.Unescaped)

include drawn

theorem bars_unescaped (target cursor : Nat) (us : List (Underlined κ)) :
    Row.Unescaped (bars g target cursor us) := by
  induction us generalizing cursor with
  | nil => simp [bars]
  | cons u rest ih =>
    rw [bars]
    split
    · exact ih cursor
    · simp [drawn.each, ih]

theorem labelRows_unescaped (waiting : List (Underlined κ)) {u : Underlined κ}
    (unescaped : u.callout.Unescaped) {text : List (List Char)} (told : u.callout.text = some text) :
    ∀ r ∈ labelRows g waiting u text, Row.Unescaped r := by
  have lead := bars_unescaped drawn u.columns.middle 0 waiting
  have first := unescaped.first told
  intro r member
  rcases List.mem_cons.mp member with rfl | member
  · simp [lead, drawn.each, first, Text.esc_ne_space]
  · obtain ⟨line, inside, rfl⟩ := List.mem_map.mp member
    have other := unescaped.others told line inside
    simp [lead, drawn.each, other, Text.esc_ne_space]

theorem allLabelRows_unescaped (waiting : List (Underlined κ)) {us : List (Underlined κ)}
    (unescaped : ∀ u ∈ us, u.callout.Unescaped) :
    ∀ r ∈ allLabelRows g waiting us, Row.Unescaped r := by
  induction us generalizing waiting with
  | nil => simp [allLabelRows]
  | cons u rest ih =>
    rw [List.forall_mem_cons] at unescaped
    rw [allLabelRows]
    split
    · exact ih waiting unescaped.2
    · rename_i text told
      intro r member
      rcases List.mem_append.mp member with member | member
      · exact ih _ unescaped.2 r member
      · exact labelRows_unescaped drawn _ unescaped.1 told r member

variable [Coordinate κ]

theorem run_unescaped (u : Underlined κ) (start : Nat) : (run g u start).Unescaped := by
  have middle : esc ≠ middleGlyph g u.callout := by
    unfold middleGlyph
    split
    · simp [drawn.each]
    · split <;> simp [drawn.each]
  simp only [run, Segment.unescaped_mk]
  split <;> simp [drawn.each, middle]

theorem row_unescaped (done : Nat) (us : List (Underlined κ)) : Row.Unescaped (row g done us) := by
  induction us generalizing done with
  | nil => exact Row.unescaped_nil
  | cons u rest ih =>
    rw [row]
    split
    · simp [run_unescaped drawn, ih]
    · exact ih done

theorem rows_unescaped {us : List (Underlined κ)} (unescaped : ∀ u ∈ us, u.callout.Unescaped) :
    ∀ r ∈ rows g us, Row.Unescaped r := by
  unfold rows
  split
  · simp
  · exact List.forall_mem_cons.mpr
      ⟨row_unescaped drawn 0 us, allLabelRows_unescaped drawn [] unescaped⟩

end Underline

/-! ## Frames -/

/-- Whether neither the labels nor the lines of a frame hold an escape. -/
structure Frame.Unescaped (f : Frame κ) : Prop where
  labels : ∀ l ∈ f.window.labels, l.Unescaped
  lines : ∀ laid ∈ f.layout.lines, esc ∉ laid.line.content

/-- A manner that adds no escapes: the glyphs are none and the lines are left as they are. -/
structure Manner.Unescaped (m : Manner) : Prop where
  glyphs : m.theme.glyphs.Unescaped
  highlighter : m.highlighter = .plain

namespace Frame

variable {m : Manner} (manner : m.Unescaped) {f : Frame κ}

theorem esc_not_mem_digits (n : Nat) : esc ∉ digits n := Text.esc_not_mem_toString n

include manner

theorem footer_unescaped : (footer m f).Unescaped := by
  simp [footer, manner.glyphs.each]

theorem numberedEdge_unescaped (width number : Nat) :
    (numberedEdge m width number).Unescaped := by
  simp [numberedEdge, manner.glyphs.each, Text.esc_ne_space, esc_not_mem_digits]

theorem brokenEdge_unescaped (width : Nat) : (brokenEdge m width).Unescaped := by
  simp [brokenEdge, manner.glyphs.each, Text.esc_ne_space]

theorem sourceRow_unescaped (language : Option String) {line : Line κ}
    (unescaped : esc ∉ line.content) (placed : List (Placed κ)) :
    (sourceRow m f language line placed).Unescaped := by
  simp [sourceRow, numberedEdge_unescaped manner, Gutter.line_unescaped manner.glyphs,
    manner.highlighter, Text.esc_not_mem_expandTabs m.tab unescaped]

theorem endRows_unescaped (placed : List (Placed κ)) {c : Callout κ} (unescaped : c.Unescaped)
    {text : List (List Char)} (told : c.text = some text) :
    ∀ r ∈ endRows m f placed c text, r.Unescaped := by
  have first := unescaped.first told
  intro r member
  rcases List.mem_cons.mp member with rfl | member
  · simp [brokenEdge_unescaped manner, Gutter.row_unescaped manner.glyphs, manner.glyphs.each, first,
      Text.esc_ne_space]
  · obtain ⟨line, inside, rfl⟩ := List.mem_map.mp member
    have other := unescaped.others told line inside
    simp [brokenEdge_unescaped manner, Gutter.row_unescaped manner.glyphs, other]

theorem allEndRows_unescaped {placed : List (Placed κ)}
    (unescaped : ∀ p ∈ placed, p.callout.Unescaped) :
    ∀ r ∈ allEndRows m f placed, r.Unescaped := by
  intro r member
  obtain ⟨p, inside, member⟩ := List.mem_flatMap.mp member
  split at member
  · rename_i text _ told
    exact endRows_unescaped manner placed (unescaped p inside) told r member
  · exact absurd member List.not_mem_nil

omit manner in
theorem place_unescaped (unescaped : f.Unescaped) (laid : LaidLine κ) :
    ∀ p ∈ f.place m laid, p.callout.Unescaped := by
  have callouts := Callout.unescaped_ofLabels m.theme.palette 0 unescaped.labels
  unfold Frame.place
  intro p member
  obtain ⟨i, inside, rfl⟩ := List.mem_iff_getElem.mp member
  rw [List.getElem_zipWith]
  exact callouts _ (List.getElem_mem _)

variable [Coordinate κ]

theorem underlineRows_unescaped (line : Line κ) {placed : List (Placed κ)}
    (unescaped : ∀ p ∈ placed, p.callout.Unescaped) :
    ∀ r ∈ underlineRows m f line placed, r.Unescaped := by
  intro r member
  obtain ⟨underline, inside, rfl⟩ := List.mem_map.mp member
  have rows : ∀ r ∈ Underline.rows m.theme.glyphs (Underlined.ofPlaced m.tab line placed),
      Row.Unescaped r := by
    refine Underline.rows_unescaped manner.glyphs fun u u_member => ?_
    obtain ⟨p, p_member, rfl⟩ := List.mem_map.mp u_member
    exact unescaped p (List.mem_filter.mp p_member).1
  simp [brokenEdge_unescaped manner, Gutter.row_unescaped manner.glyphs, rows underline inside]

theorem lineRows_unescaped (unescaped : f.Unescaped) (language : Option String)
    {laid : LaidLine κ} (member : laid ∈ f.layout.lines) :
    ∀ r ∈ lineRows m f language laid, r.Unescaped := by
  have placed := place_unescaped (m := m) unescaped laid
  refine List.forall_mem_cons.mpr
    ⟨sourceRow_unescaped manner language (unescaped.lines laid member) _, ?_⟩
  exact List.forall_mem_append.mpr
    ⟨underlineRows_unescaped manner laid.line placed, allEndRows_unescaped manner placed⟩

variable [Coordinate.Legible κ]

theorem header_unescaped {name : Option String} (unescaped : ∀ n ∈ name, esc ∉ n.toList) :
    (header m name f).Unescaped := by
  have position : esc ∉ f.position := by
    unfold Frame.position
    rw [List.mem_append, List.mem_cons]
    simp only [not_or]
    exact ⟨esc_not_mem_digits _, by decide, Coordinate.Legible.esc_not_mem_text _⟩
  have colon : esc ≠ ':' := by decide
  cases name with
  | none => simp [header, manner.glyphs.each, position]
  | some n => simp [header, manner.glyphs.each, position, colon, unescaped n rfl]

/-- The rows of a frame without escapes hold none. -/
theorem rows_unescaped (unescaped : f.Unescaped) {source : Source}
    (name : ∀ n ∈ source.name, esc ∉ n.toList) : ∀ r ∈ rows m source f, r.Unescaped := by
  refine List.forall_mem_cons.mpr ⟨header_unescaped manner name, ?_⟩
  refine List.forall_mem_append.mpr ⟨fun r member => ?_, by simp [footer_unescaped manner]⟩
  obtain ⟨laid, inside, member⟩ := List.mem_flatMap.mp member
  exact lineRows_unescaped manner unescaped source.language inside r member

end Frame

/-! ## Whole snippets -/

/-- Whether neither the name nor the bytes of a source hold an escape. -/
structure Source.Unescaped (source : Source) : Prop where
  name : ∀ n ∈ source.name, esc ∉ n.toList
  bytes : 0x1B ∉ source.bytes

variable [Coordinate κ]

theorem Label.unescaped_settle (bytes : List UInt8) {l : Label κ} (unescaped : l.Unescaped) :
    (Window.settle bytes l).Unescaped := by
  unfold Window.settle
  dsimp only
  split
  · split <;> exact unescaped
  · exact unescaped

theorem Frame.unescaped_of_ofWindow {m : Manner} {source : Source} {w : Window κ} {f : Frame κ}
    (bytes : 0x1B ∉ source.bytes) (shown : Shown Label.Unescaped source.bytes w.labels w.contents)
    (framed : ofWindow m source w = .ok f) : f.Unescaped := by
  obtain ⟨rfl, data, within, lines⟩ := Frame.content_subset framed shown.data
  refine ⟨shown.labels, fun laid member inside => ?_⟩
  exact Utf8.esc_not_mem_decode (fun escape => bytes (within escape)) (lines laid member inside)

variable [Coordinate.Legible κ]

theorem Label.esc_not_mem_unreadableNotice {l : Label κ} (unescaped : l.Unescaped) :
    esc ∉ l.unreadableNotice.toList := by
  have text : esc ∉ (l.text.getD "<none>").toList := by
    cases told : l.text with
    | none => decide +kernel
    | some text => exact unescaped text told
  have span : esc ∉ l.span.describe.toList := by
    unfold Span.describe
    refine Text.esc_not_mem_append (Text.esc_not_mem_append (Text.esc_not_mem_append
      (Text.esc_not_mem_append ?_ ?_) ?_) ?_) ?_
    any_goals exact Coordinate.Legible.esc_not_mem_text _
    all_goals decide +kernel
  unfold unreadableNotice
  refine Text.esc_not_mem_append (Text.esc_not_mem_append (Text.esc_not_mem_append
    (Text.esc_not_mem_append ?_ text) ?_) span) ?_
  all_goals decide +kernel

namespace Snippet

theorem notices_unescaped (m : Manner) {failures : List (Failure κ)}
    (unescaped : ∀ f ∈ failures, f.label.Unescaped) :
    ∀ r ∈ notices m failures, r.Unescaped := by
  intro r member
  obtain ⟨failure, inside, rfl⟩ := List.mem_map.mp member
  simp [Label.esc_not_mem_unreadableNotice (unescaped failure inside)]

/-- The rows of a snippet hold no escape if neither its labels nor its source do. -/
theorem rows_unescaped {m : Manner} (manner : m.Unescaped) {source : Source}
    (unescaped : source.Unescaped) {labels : List (Label κ)}
    (labels_unescaped : ∀ l ∈ labels, l.Unescaped) {drawn : List Row}
    (made : rows m source labels = .ok drawn) : ∀ r ∈ drawn, r.Unescaped := by
  obtain ⟨merge, gathered, made⟩ := of_bind_eq_ok made
  obtain ⟨frames, framed, made⟩ := of_bind_eq_ok made
  cases made
  obtain ⟨windows, failures⟩ := Window.shown_of_ofSource gathered
    fun l member => Label.unescaped_settle source.bytes (labels_unescaped l member)
  refine List.forall_mem_append.mpr ⟨notices_unescaped m failures, fun r member => ?_⟩
  obtain ⟨f, inside, member⟩ := List.mem_flatMap.mp member
  obtain ⟨w, w_member, w_framed⟩ := exists_of_mem_mapM framed inside
  have frame := Frame.unescaped_of_ofWindow unescaped.bytes (windows w w_member) w_framed
  exact Frame.rows_unescaped manner frame unescaped.name r member

end Snippet

end Marginalia
