import Marginalia.Proofs.Snippet.Gathering
import Marginalia.Snippet.Drawing

/-!
# Rows that can be drawn

No count in a frame is below zero.  A connector has room because the gutter of a window is as wide
as the deepest of its lines, and an underline or a bar is only drawn from where the one before it
left off.
-/

namespace Marginalia

variable {κ : Type}

/-! ## Strokes, segments and rows -/

/-- Whether every stroke of a segment can be drawn. -/
def Segment.Drawable (s : Segment) : Prop := ∀ stroke ∈ s.strokes, stroke.Drawable

@[simp] theorem Stroke.drawable_repeated (glyph : Char) (count : Int) :
    (repeated glyph count).Drawable ↔ 0 ≤ count := Iff.rfl

@[simp] theorem Stroke.drawable_once (glyph : Char) : (once glyph).Drawable := Int.one_nonneg

@[simp] theorem Stroke.drawable_text (cs : List Char) : (text cs).Drawable := trivial

@[simp] theorem Segment.drawable_mk (style : Style) (strokes : List Stroke) :
    (Segment.mk style strokes).Drawable ↔ ∀ stroke ∈ strokes, stroke.Drawable := Iff.rfl

@[simp] theorem Segment.drawable_plain (strokes : List Stroke) :
    (plain strokes).Drawable ↔ ∀ stroke ∈ strokes, stroke.Drawable := Iff.rfl

@[simp] theorem Segment.drawable_blank (count : Int) : (blank count).Drawable ↔ 0 ≤ count := by
  simp [blank]

@[simp] theorem Row.drawable_nil : Row.Drawable [] := by simp [Row.Drawable]

@[simp] theorem Row.drawable_cons (s : Segment) (r : Row) :
    Row.Drawable (s :: r) ↔ s.Drawable ∧ r.Drawable := List.forall_mem_cons

@[simp] theorem Row.drawable_append (r t : Row) :
    Row.Drawable (r ++ t) ↔ r.Drawable ∧ t.Drawable := List.forall_mem_append

/-! ## Gutters -/

namespace Gutter

variable {g : Glyphs} {room : Nat} {placed : List (Placed κ)}

/-- The callouts beside a line take no more room than its relations do. -/
theorem countP_zipWith_le (callouts : List (Callout κ)) (relations : List Relation) :
    (List.zipWith Placed.mk callouts relations).countP (·.relation.isMultiLine) ≤
      Relation.depth relations := by
  induction callouts generalizing relations with
  | nil => simp
  | cons c callouts ih =>
    cases relations with
    | nil => simp
    | cons r relations =>
      have rest := ih relations
      rw [Relation.depth] at *
      rw [List.zipWith_cons_cons, List.countP_cons, List.countP_cons]
      dsimp only
      omega

/-- The connectors beside a line fit if those to come are no more than there is room for. -/
theorem besideLine_drawable {depth : Nat}
    (fits : depth + placed.countP (·.relation.isMultiLine) ≤ room) :
    Row.Drawable (besideLine g room depth placed) := by
  induction placed generalizing depth with
  | nil =>
    simp only [besideLine, Row.drawable_cons, Segment.drawable_blank, Row.drawable_nil, and_true]
    omega
  | cons p rest ih =>
    rw [List.countP_cons] at fits
    -- an arrow takes all the room that is left, a bar one place of it
    cases related : p.relation with
    | starts | ends =>
      have connects : p.relation.isMultiLine = true := by rw [related]; rfl
      rw [if_pos connects] at fits
      simp [besideLine, related, arrow]
      omega
    | passes =>
      have connects : p.relation.isMultiLine = true := by rw [related]; rfl
      rw [if_pos connects] at fits
      simpa [besideLine, related, bar] using @ih (depth + 1) (by omega)
    | contained | none =>
      have away : ¬p.relation.isMultiLine = true := by rw [related]; exact Bool.false_ne_true
      rw [if_neg away] at fits
      simpa [besideLine, related] using ih fits

theorem line_drawable (fits : placed.countP (·.relation.isMultiLine) ≤ room) :
    Row.Drawable (line g room placed) := by
  unfold line
  split
  · exact Row.drawable_nil
  · exact besideLine_drawable (by omega)

theorem besideRow_drawable {depth width waiting : Nat} {target : Option Nat}
    (fits : depth + placed.countP (·.relation.isMultiLine) ≤ room) :
    Row.Drawable (besideRow g room width target waiting depth placed) := by
  induction placed generalizing depth with
  | nil =>
    simp only [besideRow, Row.drawable_cons, Segment.drawable_blank, Row.drawable_nil, and_true]
    omega
  | cons p rest ih =>
    rw [List.countP_cons] at fits
    rw [besideRow]
    split
    · rename_i connects
      rw [if_pos connects] at fits
      split
      · simp
        omega
      · have behind := @ih (depth + 1) (by omega)
        split <;> simpa [bar] using behind
    · rename_i away
      rw [if_neg away] at fits
      exact ih fits

theorem row_drawable {width waiting : Nat} {target : Option Nat}
    (fits : placed.countP (·.relation.isMultiLine) ≤ room) :
    Row.Drawable (row g room width target waiting placed) := by
  unfold row
  split
  · simp
  · exact besideRow_drawable (by omega)

end Gutter

/-! ## Labels under a line -/

namespace Underline

variable {g : Glyphs}

/-- A bar is drawn only where the cursor has not passed it. -/
theorem bars_drawable (target cursor : Nat) (us : List (Underlined κ)) :
    Row.Drawable (bars g target cursor us) := by
  induction us generalizing cursor with
  | nil =>
    simp only [bars, Row.drawable_cons, Segment.drawable_blank, Row.drawable_nil, and_true]
    omega
  | cons u rest ih =>
    rw [bars]
    split
    · exact ih cursor
    · simp only [Row.drawable_cons, Segment.drawable_blank, Segment.drawable_mk]
      exact ⟨by omega, by simp, ih _⟩

theorem labelRows_drawable (waiting : List (Underlined κ)) (u : Underlined κ)
    (text : List (List Char)) : ∀ r ∈ labelRows g waiting u text, Row.Drawable r := by
  have lead := bars_drawable (g := g) u.columns.middle 0 waiting
  intro r member
  rcases List.mem_cons.mp member with rfl | member
  · simpa using lead
  · obtain ⟨line, -, rfl⟩ := List.mem_map.mp member
    simpa using lead

theorem allLabelRows_drawable (waiting us : List (Underlined κ)) :
    ∀ r ∈ allLabelRows g waiting us, Row.Drawable r := by
  induction us generalizing waiting with
  | nil => simp [allLabelRows]
  | cons u rest ih =>
    rw [allLabelRows]
    split
    · exact ih waiting
    · rename_i text _
      intro r member
      rcases List.mem_append.mp member with member | member
      · exact ih _ r member
      · exact labelRows_drawable _ u text r member

end Underline

/-! ## Underlines -/

variable [Coordinate κ]

namespace Underline

variable {g : Glyphs}

theorem run_drawable {u : Underlined κ} {start : Nat} (begun : start < u.columns.stop) :
    (run g u start).Drawable := by
  simp only [run, Segment.drawable_mk]
  split
  · simp
    omega
  · simp
    omega

/-- Underlines stand one behind the other. -/
theorem row_drawable (done : Nat) (us : List (Underlined κ)) : Row.Drawable (row g done us) := by
  induction us generalizing done with
  | nil => exact Row.drawable_nil
  | cons u rest ih =>
    rw [row]
    split
    · rename_i begun
      simp only [Row.drawable_cons, Segment.drawable_blank]
      exact ⟨by omega, run_drawable begun, ih _⟩
    · exact ih done

theorem rows_drawable (us : List (Underlined κ)) : ∀ r ∈ rows g us, Row.Drawable r := by
  unfold rows
  split
  · simp
  · intro r member
    rcases List.mem_cons.mp member with rfl | member
    · exact row_drawable 0 us
    · exact allLabelRows_drawable [] us r member

end Underline

/-! ## Frames -/

/-- A layout whose gutter has room for the connectors of each of its lines. -/
def Layout.Roomy (layout : Layout κ) : Prop :=
  ∀ laid ∈ layout.lines, Relation.depth laid.relations ≤ layout.gutter

theorem Layout.roomy_ofLines (lines : List (Line κ)) (spans : List (Span κ)) :
    (ofLines lines spans).Roomy := by
  have bounded (laid : List (LaidLine κ)) : ∀ l ∈ laid,
      Relation.depth l.relations ≤ (laid.map fun l => Relation.depth l.relations).foldr max 0 := by
    induction laid with
    | nil => simp
    | cons first rest ih =>
      intro l member
      rw [List.map_cons, List.foldr_cons]
      rcases List.mem_cons.mp member with rfl | member
      · exact Nat.le_max_left _ _
      · exact Nat.le_trans (ih l member) (Nat.le_max_right _ _)
  exact bounded _

namespace Frame

variable {m : Manner} {f : Frame κ} {laid : LaidLine κ} {placed : List (Placed κ)}

theorem roomy_of_ofWindow {source : Source} {w : Window κ}
    (framed : ofWindow m source w = .ok f) : f.layout.Roomy := by
  obtain ⟨c, -, rfl⟩ := of_map_eq_ok framed
  exact Layout.roomy_ofLines _ _

omit [Coordinate κ] in
/-- The callouts beside a line fit into the gutter. -/
theorem place_fits (roomy : f.layout.Roomy) (member : laid ∈ f.layout.lines) :
    (f.place m laid).countP (·.relation.isMultiLine) ≤ f.layout.gutter :=
  Nat.le_trans (Gutter.countP_zipWith_le _ _) (roomy laid member)

theorem header_drawable (name : Option String) : Row.Drawable (header m name f) := by
  unfold header
  cases name <;> simp <;> omega

theorem numberedEdge_drawable (width number : Nat) :
    Row.Drawable (numberedEdge m width number) := by
  simp [numberedEdge]

theorem brokenEdge_drawable (width : Nat) : Row.Drawable (brokenEdge m width) := by
  simp [brokenEdge]

omit [Coordinate κ] in
theorem endRows_drawable (fits : placed.countP (·.relation.isMultiLine) ≤ f.layout.gutter)
    (c : Callout κ) (text : List (List Char)) :
    ∀ r ∈ endRows m f placed c text, Row.Drawable r := by
  intro r member
  rcases List.mem_cons.mp member with rfl | member
  · simp only [Row.drawable_append]
    exact ⟨⟨brokenEdge_drawable _, Gutter.row_drawable fits⟩, by simp⟩
  · obtain ⟨line, -, rfl⟩ := List.mem_map.mp member
    simp only [Row.drawable_append]
    exact ⟨⟨brokenEdge_drawable _, Gutter.row_drawable fits⟩, by simp⟩

theorem lineRows_drawable (roomy : f.layout.Roomy) (member : laid ∈ f.layout.lines)
    (language : Option String) : ∀ r ∈ lineRows m f language laid, Row.Drawable r := by
  have fits := place_fits (m := m) roomy member
  intro r r_member
  rcases List.mem_cons.mp r_member with rfl | r_member
  · simp only [sourceRow, Row.drawable_append]
    exact ⟨⟨numberedEdge_drawable _ _, Gutter.line_drawable fits⟩, by simp⟩
  · rcases List.mem_append.mp r_member with r_member | r_member
    · obtain ⟨underline, u_member, rfl⟩ := List.mem_map.mp r_member
      simp only [Row.drawable_append]
      exact ⟨⟨brokenEdge_drawable _, Gutter.row_drawable fits⟩,
        Underline.rows_drawable _ underline u_member⟩
    · obtain ⟨p, -, p_member⟩ := List.mem_flatMap.mp r_member
      split at p_member
      · exact endRows_drawable fits _ _ r p_member
      · exact absurd p_member List.not_mem_nil

/-- A frame with room for its connectors can be drawn. -/
theorem rows_drawable (roomy : f.layout.Roomy) (source : Source) :
    ∀ r ∈ rows m source f, Row.Drawable r := by
  intro r member
  rcases List.mem_cons.mp member with rfl | member
  · exact header_drawable _
  · rcases List.mem_append.mp member with member | member
    · obtain ⟨laid, laid_member, r_member⟩ := List.mem_flatMap.mp member
      exact lineRows_drawable roomy laid_member _ r r_member
    · cases List.mem_singleton.mp member
      simp [footer]
      omega

end Frame

namespace Snippet

theorem notices_drawable (m : Manner) (failures : List (Failure κ)) :
    ∀ r ∈ notices m failures, Row.Drawable r := by
  intro r member
  obtain ⟨failure, -, rfl⟩ := List.mem_map.mp member
  simp

end Snippet

end Marginalia
