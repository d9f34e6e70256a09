import Marginalia.Snippet.Drawing

/-!
# Snippets without styles

A palette only says in which style each segment is painted.  Drawn without styles, the rows of a
snippet have the same strokes in the same places: every part of a drawing gives the same strokes for
callouts that have lost their styles.
-/

namespace Marginalia

/-! ## Taking styles off -/

/-- The segment without its style. -/
def Segment.undressed (s : Segment) : Segment := { s with style := .plain }

/-- The row without styles. -/
def Row.undressed (r : Row) : Row := r.map Segment.undressed

/-- The manner without styles. -/
def Manner.undressed (m : Manner) : Manner :=
  { m with theme := { m.theme with palette := .none } }

section

variable {κ : Type}

/-- The callout without its style. -/
def Callout.undressed (c : Callout κ) : Callout κ := { c with style := .plain }

/-- The callout beside a line without its style. -/
def Placed.undressed (p : Placed κ) : Placed κ := { p with callout := p.callout.undressed }

/-- The callout under a line without its style. -/
def Underlined.undressed (u : Underlined κ) : Underlined κ :=
  { u with callout := u.callout.undressed }

end

@[simp] theorem Segment.undressed_mk (style : Style) (strokes : List Stroke) :
    (Segment.mk style strokes).undressed = ⟨.plain, strokes⟩ := rfl

@[simp] theorem Segment.undressed_blank (count : Int) : (blank count).undressed = blank count := rfl

@[simp] theorem Segment.undressed_plain (strokes : List Stroke) :
    (plain strokes).undressed = plain strokes := rfl

@[simp] theorem Row.undressed_nil : Row.undressed [] = [] := rfl

@[simp] theorem Row.undressed_cons (s : Segment) (r : Row) :
    Row.undressed (s :: r) = s.undressed :: r.undressed := rfl

@[simp] theorem Row.undressed_append (r t : Row) :
    Row.undressed (r ++ t) = r.undressed ++ t.undressed := List.map_append

/-! ## Palettes -/

/-- Without styles no label has one. -/
@[simp] theorem Palette.highlight_none (index : Int) : Palette.none.highlight index = .plain := by
  have round : index.tmod (Palette.none.highlights.length : Int) = 0 := Int.tmod_one index
  rw [highlight, round]
  rfl

variable {κ : Type}

theorem Callout.ofLabels_none (palette : Palette) (index : Nat) (labels : List (Label κ)) :
    ofLabels .none index labels = (ofLabels palette index labels).map undressed := by
  induction labels generalizing index with
  | nil => rfl
  | cons label rest ih =>
    rw [ofLabels, ofLabels, List.map_cons, ← ih, Palette.highlight_none]
    rfl

variable [Coordinate κ]

theorem Underlined.ofPlaced_undressed (tab : Nat) (line : Line κ) (placed : List (Placed κ)) :
    ofPlaced tab line (placed.map Placed.undressed) =
      (ofPlaced tab line placed).map undressed := by
  simp only [ofPlaced, List.filter_map, List.map_map]
  rfl

/-! ## Gutters -/

namespace Gutter

variable {g : Glyphs} {room width waiting : Nat} {target : Option Nat}

omit [Coordinate κ]

theorem besideLine_undressed (depth : Nat) (placed : List (Placed κ)) :
    besideLine g room depth (placed.map Placed.undressed) =
      Row.undressed (besideLine g room depth placed) := by
  induction placed generalizing depth with
  | nil => rfl
  | cons p rest ih =>
    have same : p.undressed.relation = p.relation := rfl
    cases related : p.relation <;> simp [besideLine, same, related, ih] <;> rfl

theorem line_undressed (placed : List (Placed κ)) :
    line g room (placed.map Placed.undressed) = Row.undressed (line g room placed) := by
  unfold line
  split
  · rfl
  · exact besideLine_undressed 0 placed

theorem besideRow_undressed (depth : Nat) (placed : List (Placed κ)) :
    besideRow g room width target waiting depth (placed.map Placed.undressed) =
      Row.undressed (besideRow g room width target waiting depth placed) := by
  induction placed generalizing depth with
  | nil => rfl
  | cons p rest ih =>
    have relation_eq : p.undressed.relation = p.relation := rfl
    have index_eq : p.undressed.callout.index = p.callout.index := rfl
    have runs_eq : runsOn waiting p.undressed = runsOn waiting p := rfl
    rw [List.map_cons, besideRow, besideRow, relation_eq, index_eq, runs_eq, ih, ih]
    split
    · split
      · rfl
      · split <;> rfl
    · rfl

theorem row_undressed (placed : List (Placed κ)) :
    row g room width target waiting (placed.map Placed.undressed) =
      Row.undressed (row g room width target waiting placed) := by
  unfold row
  split
  · rfl
  · exact besideRow_undressed 0 placed

end Gutter

/-! ## Underlines -/

namespace Underline

variable {g : Glyphs}

theorem row_undressed (done : Nat) (us : List (Underlined κ)) :
    row g done (us.map Underlined.undressed) = Row.undressed (row g done us) := by
  induction us generalizing done with
  | nil => rfl
  | cons u rest ih =>
    have columns_eq : u.undressed.columns = u.columns := rfl
    rw [List.map_cons, row, row, columns_eq, ih, ih]
    split <;> rfl

omit [Coordinate κ]

theorem bars_undressed (target cursor : Nat) (us : List (Underlined κ)) :
    bars g target cursor (us.map Underlined.undressed) =
      Row.undressed (bars g target cursor us) := by
  induction us generalizing cursor with
  | nil => rfl
  | cons u rest ih =>
    have columns_eq : u.undressed.columns = u.columns := rfl
    rw [List.map_cons, bars, bars, columns_eq, ih, ih]
    split <;> rfl

theorem labelRows_undressed (waiting : List (Underlined κ)) (u : Underlined κ)
    (text : List (List Char)) :
    labelRows g (waiting.map Underlined.undressed) u.undressed text =
      (labelRows g waiting u text).map Row.undressed := by
  have columns_eq : u.undressed.columns = u.columns := rfl
  simp only [labelRows, columns_eq, bars_undressed, List.map_cons, List.map_map, Function.comp_def,
    Row.undressed_append]
  rfl

theorem allLabelRows_undressed (waiting us : List (Underlined κ)) :
    allLabelRows g (waiting.map Underlined.undressed) (us.map Underlined.undressed) =
      (allLabelRows g waiting us).map Row.undressed := by
  induction us generalizing waiting with
  | nil => rfl
  | cons u rest ih =>
    have text_eq : u.undressed.callout.text = u.callout.text := rfl
    rw [List.map_cons, allLabelRows, allLabelRows, text_eq]
    split
    · exact ih waiting
    · rename_i text _
      rw [List.map_append, ← labelRows_undressed, List.map_reverse, ← ih]
      rfl

variable [Coordinate κ]

theorem rows_undressed (us : List (Underlined κ)) :
    rows g (us.map Underlined.undressed) = (rows g us).map Row.undressed := by
  unfold rows
  rw [List.isEmpty_map]
  split
  · rfl
  · rw [List.map_cons, row_undressed, ← allLabelRows_undressed]
    rfl

end Underline

/-! ## Frames -/

namespace Frame

variable (m : Manner) (f : Frame κ)

theorem header_undressed (name : Option String) :
    header m.undressed name f = (header m name f).undressed := by
  cases name <;> rfl

theorem underlineRows_undressed (line : Line κ) (placed : List (Placed κ)) :
    underlineRows m.undressed f line (placed.map Placed.undressed) =
      (underlineRows m f line placed).map Row.undressed := by
  simp only [underlineRows, Gutter.row_undressed, Underlined.ofPlaced_undressed,
    Underline.rows_undressed, List.map_map, Function.comp_def, Row.undressed_append]
  rfl

omit [Coordinate κ]

theorem place_undressed (laid : LaidLine κ) :
    f.place m.undressed laid = (f.place m laid).map Placed.undressed := by
  have callouts_eq : f.callouts m.undressed = (f.callouts m).map Callout.undressed :=
    Callout.ofLabels_none _ _ _
  rw [place, place, callouts_eq, List.zipWith_map_left, List.map_zipWith]
  rfl

theorem sourceRow_undressed (language : Option String) (line : Line κ) (placed : List (Placed κ)) :
    sourceRow m.undressed f language line (placed.map Placed.undressed) =
      (sourceRow m f language line placed).undressed := by
  simp only [sourceRow, Row.undressed_append, ← Gutter.line_undressed]
  rfl

theorem endRows_undressed (placed : List (Placed κ)) (c : Callout κ) (text : List (List Char)) :
    endRows m.undressed f (placed.map Placed.undressed) c.undressed text =
      (endRows m f placed c text).map Row.undressed := by
  simp only [endRows, Gutter.row_undressed, List.map_cons, List.map_map, Function.comp_def,
    Row.undressed_append]
  rfl

theorem allEndRows_undressed (placed : List (Placed κ)) :
    allEndRows m.undressed f (placed.map Placed.undressed) =
      (allEndRows m f placed).map Row.undressed := by
  unfold allEndRows
  rw [List.flatMap_map, List.map_flatMap]
  refine congrArg placed.flatMap (funext fun p => ?_)
  have relation_eq : p.undressed.relation = p.relation := rfl
  have text_eq : p.undressed.callout.text = p.callout.text := rfl
  rw [relation_eq, text_eq]
  split
  · exact endRows_undressed m f placed p.callout _
  · rfl

variable [Coordinate κ]

theorem lineRows_undressed (language : Option String) (laid : LaidLine κ) :
    lineRows m.undressed f language laid = (lineRows m f language laid).map Row.undressed := by
  unfold lineRows
  dsimp only
  rw [place_undressed, sourceRow_undressed, underlineRows_undressed, allEndRows_undressed,
    List.map_cons, List.map_append]

/-- A frame drawn without styles. -/
theorem rows_undressed (source : Source) :
    rows m.undressed source f = (rows m source f).map Row.undressed := by
  have lines_eq := funext (lineRows_undressed m f source.language)
  rw [rows, rows, header_undressed, lines_eq, List.map_cons, List.map_append, List.map_flatMap]
  rfl

end Frame

namespace Snippet

theorem notices_undressed (m : Manner) (failures : List (Failure κ)) :
    notices m.undressed failures = (notices m failures).map Row.undressed := by
  unfold notices
  rw [List.map_map]
  rfl

/-- What is drawn without styles is what is drawn with them, and it is drawn just as well. -/
theorem rows_undressed (m : Manner) (source : Source) (labels : List (Label κ)) :
    rows m.undressed source labels = (rows m source labels).map (·.map Row.undressed) := by
  have frames_eq := funext fun f : Frame κ => Frame.rows_undressed m f source
  have same : rows m.undressed source labels = (do
      let merge ← Window.ofSource source labels m.before m.after
      let frames ← merge.windows.mapM (Frame.ofWindow m source)
      return notices m.undressed merge.failures ++
        frames.flatMap (Frame.rows m.undressed source)) := rfl
  rw [same, rows]
  cases Window.ofSource source labels m.before m.after with
  | error e => rfl
  | ok merge =>
    simp only [bind, Except.bind]
    cases merge.windows.mapM (Frame.ofWindow m source) with
    | error e => rfl
    | ok frames =>
      simp only [notices_undressed, frames_eq, pure, Except.pure, Except.map, List.map_append,
        List.map_flatMap]

end Snippet

end Marginalia
