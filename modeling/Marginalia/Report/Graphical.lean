import Marginalia.Report.Options
import Marginalia.Report.Outline
import Marginalia.Text.Wrap

/-!
# Graphical reports

A diagnostic is drawn as a header with its code and link, its message and causes wrapped behind
an icon and connectors, the snippets of its labels, and its help.  The report ends its first
diagnostic with a footer, and related diagnostics follow, each behind an empty line.
-/

namespace Marginalia.Graphical

variable {κ : Type} [Coordinate κ]

/-- Ends the escapes of links. -/
def linkEnd : List Char := [Text.esc, '\\']

/-- A text that links to an address. -/
def hyperlink (url text : List Char) : List Char :=
  Text.linkTo url linkEnd ++ text ++ Text.linkTo [] linkEnd

/-- The style of the severity of a diagnostic. -/
def tone (s : Settings) (f : Statement κ) : Style := s.manner.theme.palette.severity f.graveness

/-- The code of a diagnostic and where to read more, in one line. -/
def reference (s : Settings) (f : Statement κ) : List Char :=
  let paint (text : String) : List Char := (tone s f).paint text.toList
  let bracketed (url : String) : List Char :=
    '(' :: s.manner.theme.palette.link.paint url.toList ++ [')']
  match f.url, f.code with
  | some url, code =>
    if s.links then
      let text := match code with
        | some code => code ++ " (link)"
        | none => "(link)"
      hyperlink url.toList (paint text)
    else
      match code with
      | some code => paint code ++ ' ' :: bracketed url
      | none => bracketed url
  | none, some code => paint code
  | none, none => []

/-- The lines in front of the message.  A related diagnostic begins with its severity. -/
def header (s : Settings) (depth : Nat) (f : Statement κ) : List (List Char) :=
  let reference := reference s f
  if depth = 0 then (if reference.isEmpty then [] else [reference]) ++ [[]]
  else
    let title := (tone s f).paint (f.graveness.title ++ ":").toList
    [if reference.isEmpty then title else title ++ ' ' :: reference, []]

/-- A painted mark two columns from the edge. -/
def mark (style : Style) (glyphs : List Char) (behind : Nat) : List Char :=
  [' ', ' '] ++ style.paint glyphs ++ List.replicate behind ' '

/-- The lines of the message behind the icon of the severity. -/
def message (s : Settings) (f : Statement κ) : List (List Char) :=
  let g := s.manner.theme.glyphs
  let style := tone s f
  Text.Wrapping.lines ⟨s.width, mark style [g.icon f.graveness] 1, mark style [g.vertical] 1⟩
    f.message.toList

/-- The lines of causes, each behind an arrow; the last one has the corner. -/
def causes (s : Settings) (style : Style) : List Link → List (List Char)
  | [] => []
  | link :: rest =>
    let g := s.manner.theme.glyphs
    let corner := if rest.isEmpty then g.bottomCorner else g.branch
    let others := if rest.isEmpty then List.replicate 6 ' ' else mark style [g.vertical] 3
    Text.Wrapping.lines ⟨s.width, mark style [corner, g.horizontal, g.rightArrow] 1, others⟩
      link.message.toList ++ causes s style rest

/-- The lines of the help. -/
def help (s : Settings) (f : Statement κ) : List (List Char) :=
  match f.help with
  | some help =>
    Text.Wrapping.lines
      ⟨s.width, mark s.manner.theme.palette.help "help:".toList 1, List.replicate 8 ' '⟩
      help.toList
  | none => []

/-- The lines of the footer, which only the first diagnostic has. -/
def footer (s : Settings) (depth : Nat) : List (List Char) :=
  match depth, s.footer with
  | 0, some footer => [] :: Text.Wrapping.lines ⟨s.width, [' ', ' '], [' ', ' ']⟩ footer.toList
  | _, _ => []

/-- The lines of what there is to show. -/
def snippet (s : Settings) (entry : Entry κ) : Except (SpanError κ) (List (List Char)) :=
  match entry.shown? with
  | some (source, labels) => (Snippet.rows s.manner source labels).map (·.map Row.painted)
  | none => .ok []

/-- The lines of an entry, behind an empty line if it is not the first. -/
def entry (s : Settings) (e : Entry κ) : Except (SpanError κ) (List (List Char)) :=
  match e with
  | .told depth f _ => do
    let snippet ← snippet s e
    return (if depth = 0 then [] else [[]]) ++ header s depth f ++ message s f ++
      causes s (tone s f) (Link.told f.cause) ++ snippet ++ help s f ++ footer s depth
  | .omitted _ count =>
    return [[], (String.join ["  ... ", toString count,
      " related diagnostic(s) omitted (nesting limit ", toString s.depthLimit, ")"]).toList]

/-- The lines of a report. -/
def lines (s : Settings) (report : Report κ) : Except (SpanError κ) (List (List Char)) :=
  List.flatten <$> (report.outline s.depthLimit).mapM (entry s)

end Marginalia.Graphical
