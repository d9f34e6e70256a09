import Marginalia.Highlight
import Marginalia.Snippet.Gutter
import Marginalia.Snippet.Underline
import Marginalia.Snippet.Window

/-!
# Drawn snippets

A window is drawn as a frame: a header with the place of its anchor, the numbered source lines
with the connectors of the gutter, underlines and labels below the lines they belong to, and a
closing corner.  Labels that cannot be read are told about in front of all windows.
-/

namespace Marginalia

/-- How snippets are made. -/
structure Manner where
  /-- Lines of context in front of a label. -/
  before : Nat
  /-- Lines of context behind a label. -/
  after : Nat
  /-- Distance of tab stops. -/
  tab : Nat
  theme : Theme
  highlighter : Highlighter

/-- A window made ready to be drawn. -/
structure Frame (κ : Type) where
  window : Window κ
  /-- The window read from the beginning of its first line. -/
  contents : Contents κ
  layout : Layout κ

variable {κ : Type} [Coordinate κ]

namespace Frame

/-- A window of a source made ready. -/
def ofWindow (m : Manner) (source : Source) (w : Window κ) :
    Except (SpanError κ) (Frame κ) :=
  (w.aligned source m.before m.after).map fun contents =>
    ⟨w, contents, Layout.ofLines (Line.scan contents source.size) (w.labels.map Label.span)⟩

/-- The decimal digits of a number. -/
def digits (n : Nat) : List Char := (toString n).toList

/-- Columns of the line numbers: as many as the last number has digits. -/
def numberWidth (f : Frame κ) : Nat :=
  match f.layout.lines.getLast? with
  | some last => (digits last.line.number).length
  | none => (digits (f.contents.line + 1)).length

/-- The labels ready to be drawn. -/
def callouts (m : Manner) (f : Frame κ) : List (Callout κ) :=
  Callout.ofLabels m.theme.palette 0 f.window.labels

/-- The place of the anchor in the source, line and column from one. -/
def position (f : Frame κ) : List Char :=
  digits (f.window.line + 1) ++
    ':' :: (Coordinate.text (f.window.column + ((1 : Nat) : κ))).toList

/-- The row in front of the lines. -/
def header (m : Manner) (name : Option String) (f : Frame κ) : Row :=
  let g := m.theme.glyphs
  let title : Row :=
    match name with
    | some name => [⟨m.theme.palette.filename, [.text name.toList]⟩, .plain [.once ':']]
    | none => []
  [.blank (f.numberWidth + 2), .plain [.once g.topCorner, .once g.horizontal, .once g.openBox]] ++
    title ++ [.plain [.text f.position, .once g.closeBox]]

/-- The row behind the lines. -/
def footer (m : Manner) (f : Frame κ) : Row :=
  let g := m.theme.glyphs
  [.blank (f.numberWidth + 2), .plain [.once g.bottomCorner, .repeated g.horizontal 4]]

/-- The number of a source line and the edge of the frame. -/
def numberedEdge (m : Manner) (width number : Nat) : Row :=
  [.blank 1,
    ⟨m.theme.palette.lineNumber,
      [.repeated ' ' (width - (digits number).length : Nat), .text (digits number)]⟩,
    .plain [.once ' ', .once m.theme.glyphs.vertical, .once ' ']]

/-- The edge of the frame beside a row without a number. -/
def brokenEdge (m : Manner) (width : Nat) : Row :=
  [.blank 1, ⟨m.theme.palette.lineNumber, [.repeated ' ' width]⟩,
    .plain [.once ' ', .once m.theme.glyphs.dotted, .once ' ']]

/-- The row of a source line. -/
def sourceRow (m : Manner) (f : Frame κ) (language : Option String) (line : Line κ)
    (placed : List (Placed κ)) : Row :=
  numberedEdge m f.numberWidth line.number ++ Gutter.line m.theme.glyphs f.layout.gutter placed ++
    [.plain [.text (m.highlighter.paint (Text.expandTabs m.tab line.content) language)]]

/-- The underlines below a line and the labels that hang from them. -/
def underlineRows (m : Manner) (f : Frame κ) (line : Line κ) (placed : List (Placed κ)) :
    List Row :=
  let g := m.theme.glyphs
  let room := f.layout.gutter
  let lead := brokenEdge m f.numberWidth ++ Gutter.row g room (Gutter.origin room) none 0 placed
  (Underline.rows g (Underlined.ofPlaced m.tab line placed)).map (lead ++ ·)

/-- The rows of the label of a span that ends on a line. -/
def endRows (m : Manner) (f : Frame κ) (placed : List (Placed κ)) (c : Callout κ)
    (text : List (List Char)) : List Row :=
  let g := m.theme.glyphs
  let room := f.layout.gutter
  let edge := brokenEdge m f.numberWidth
  let elbow := Gutter.row g room (room + 1) (some c.index) c.index placed
  let below := Gutter.row g room (room + 3) none (c.index + 1) placed
  (edge ++ elbow ++ [⟨c.style, [.once g.horizontal, .once ' ', .text (text.headD [])]⟩]) ::
    text.tail.map fun line => edge ++ below ++ [.blank 2, ⟨c.style, [.text line]⟩]

/-- The rows of the labels of all spans that end on a line. -/
def allEndRows (m : Manner) (f : Frame κ) (placed : List (Placed κ)) : List Row :=
  placed.flatMap fun p =>
    match p.relation, p.callout.text with
    | .ends, some text => endRows m f placed p.callout text
    | _, _ => []

/-- The callouts of the window beside one of its lines. -/
def place (m : Manner) (f : Frame κ) (laid : LaidLine κ) : List (Placed κ) :=
  List.zipWith Placed.mk (f.callouts m) laid.relations

/-- The rows of a source line. -/
def lineRows (m : Manner) (f : Frame κ) (language : Option String) (laid : LaidLine κ) : List Row :=
  let placed := f.place m laid
  sourceRow m f language laid.line placed ::
    (underlineRows m f laid.line placed ++ allEndRows m f placed)

/-- The rows of the frame. -/
def rows (m : Manner) (source : Source) (f : Frame κ) : List Row :=
  header m source.name f ::
    (f.layout.lines.flatMap (lineRows m f source.language) ++ [footer m f])

end Frame

namespace Snippet

/-- The rows that tell of labels that cannot be read. -/
def notices (m : Manner) (failures : List (Failure κ)) : List Row :=
  failures.map fun failure =>
    [.blank 2, ⟨m.theme.palette.error, [.text failure.label.unreadableNotice.toList]⟩]

/-- The rows of all windows of the labels on a source. -/
def rows (m : Manner) (source : Source) (labels : List (Label κ)) :
    Except (SpanError κ) (List Row) := do
  let merge ← Window.ofSource source labels m.before m.after
  let frames ← merge.windows.mapM (Frame.ofWindow m source)
  return notices m merge.failures ++ frames.flatMap (Frame.rows m source)

end Snippet

end Marginalia
