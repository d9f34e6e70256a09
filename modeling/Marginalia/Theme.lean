import Marginalia.Style

/-!
# Themes

A theme is a set of glyphs to draw with and a palette of styles to draw in.
-/

namespace Marginalia

/-- How grave a diagnostic is. -/
inductive Severity where
  | error
  | warning
  | advice
deriving DecidableEq

namespace Severity

/-- The severity where none is given. -/
def standard : Severity := error

/-- The severity as a word. -/
def name : Severity → String
  | error => "error"
  | warning => "warning"
  | advice => "advice"

/-- The severity as the title of a related diagnostic. -/
def title : Severity → String
  | error => "Error"
  | warning => "Warning"
  | advice => "Advice"

end Severity

/-- The characters that frames, connectors and underlines are drawn with. -/
structure Glyphs where
  /-- Goes on to the right. -/
  horizontal : Char
  /-- Goes on downwards. -/
  vertical : Char
  /-- The edge of the frame beside a row that is no source line. -/
  dotted : Char
  /-- Marks a point. -/
  upArrow : Char
  /-- Leads to a source line or to a cause. -/
  rightArrow : Char
  /-- Begins a frame or a connector. -/
  topCorner : Char
  /-- Ends a frame or a connector. -/
  bottomCorner : Char
  /-- Stands in front of the place of a snippet. -/
  openBox : Char
  /-- Stands behind the place of a snippet. -/
  closeBox : Char
  /-- Leads aside from a connector that goes on. -/
  branch : Char
  /-- The place in an underline where a label hangs. -/
  stem : Char
  underline : Char
  error : Char
  warning : Char
  advice : Char
deriving DecidableEq

namespace Glyphs

/-- Box drawing characters. -/
def unicode : Glyphs where
  horizontal := '─'
  vertical := '│'
  dotted := '·'
  upArrow := '▲'
  rightArrow := '▶'
  topCorner := '╭'
  bottomCorner := '╰'
  openBox := '['
  closeBox := ']'
  branch := '├'
  stem := '┬'
  underline := '─'
  error := '×'
  warning := '⚠'
  advice := '☞'

/-- ASCII characters alone. -/
def ascii : Glyphs where
  horizontal := '-'
  vertical := '|'
  dotted := ':'
  upArrow := '^'
  rightArrow := '>'
  topCorner := ','
  bottomCorner := '\x60'
  openBox := '['
  closeBox := ']'
  branch := '|'
  stem := '|'
  underline := '^'
  error := 'x'
  warning := '!'
  advice := '>'

/-- The icon of a severity. -/
def icon (g : Glyphs) : Severity → Char
  | .error => g.error
  | .warning => g.warning
  | .advice => g.advice

end Glyphs

/-- The styles of the parts of a report. -/
structure Palette where
  error : Style
  warning : Style
  advice : Style
  help : Style
  link : Style
  filename : Style
  lineNumber : Style
  /-- The styles of the labels of a window, taken in turn. -/
  highlights : List Style
deriving DecidableEq

namespace Palette

/-- The sixteen terminal colours. -/
def ansi : Palette where
  error := [.red]
  warning := [.yellow]
  advice := [.cyan]
  help := [.cyan]
  link := [.cyan, .underline, .bold]
  filename := [.bold]
  lineNumber := [.dim]
  highlights := [[.magenta, .bold], [.yellow, .bold], [.green, .bold]]

/-- No styles. -/
def none : Palette where
  error := .plain
  warning := .plain
  advice := .plain
  help := .plain
  link := .plain
  filename := .plain
  lineNumber := .plain
  highlights := [.plain]

/-- The style of a severity. -/
def severity (p : Palette) : Severity → Style
  | .error => p.error
  | .warning => p.warning
  | .advice => p.advice

/-- The style of the label with an index in its window.  The styles are gone through again and
again; in front of the first label there are none, but for the places where a round begins. -/
def highlight (p : Palette) (index : Int) : Style :=
  match index.tmod p.highlights.length with
  | .ofNat place => (p.highlights[place]?).getD .plain
  | .negSucc _ => .plain

end Palette

/-- Glyphs and styles that go together. -/
structure Theme where
  glyphs : Glyphs
  palette : Palette
deriving DecidableEq

namespace Theme

/-- Box drawing in colour. -/
def unicode : Theme := ⟨.unicode, .ansi⟩

/-- Box drawing without escapes. -/
def unicodePlain : Theme := ⟨.unicode, .none⟩

/-- ASCII in colour. -/
def ascii : Theme := ⟨.ascii, .ansi⟩

/-- ASCII without escapes. -/
def asciiPlain : Theme := ⟨.ascii, .none⟩

end Theme

end Marginalia
