import Marginalia.Report.Environment
import Marginalia.Report.Graphical
import Marginalia.Report.Narrated

/-!
# Handlers

A handler makes the text of a report.  A graphical handler keeps the options it was made from, so
that a changed handler is made from changed options and checks all of them anew.
-/

namespace Marginalia

/-- A handler for graphical reports: options with the settings that follow from them. -/
structure GraphicalHandler where
  options : Options
  settings : Settings
  resolved : options.resolve = .ok settings

namespace GraphicalHandler

/-- The handler with options, if they can be used. -/
def ofOptions (o : Options) : Except OptionError GraphicalHandler :=
  match h : o.resolve with
  | .ok settings => .ok ⟨o, settings, h⟩
  | .error e => .error e

variable (h : GraphicalHandler)

/-- The handler with another theme. -/
def withTheme (theme : Theme) : Except OptionError GraphicalHandler :=
  ofOptions { h.options with theme := some theme }

/-- The handler with another width. -/
def withWidth (width : Number) : Except OptionError GraphicalHandler :=
  ofOptions { h.options with width := some width }

/-- The handler with other tab stops. -/
def withTab (tab : Number) : Except OptionError GraphicalHandler :=
  ofOptions { h.options with tab := some tab }

/-- The handler with as many lines of context on both sides. -/
def withContext (lines : Number) : Except OptionError GraphicalHandler :=
  ofOptions { h.options with context := some (.both lines) }

/-- The handler with links or without. -/
def withLinks (links : Bool) : Except OptionError GraphicalHandler :=
  ofOptions { h.options with links := some links }

/-- The handler with another footer. -/
def withFooter (footer : String) : Except OptionError GraphicalHandler :=
  ofOptions { h.options with footer := some footer }

end GraphicalHandler

/-- A way to make the text of a report. -/
inductive Handler where
  | graphical (handler : GraphicalHandler)
  | narrated (settings : Settings)

namespace Handler

/-- The handler for graphical reports. -/
def ofGraphical (o : Options) : Except OptionError Handler :=
  (GraphicalHandler.ofOptions o).map graphical

/-- The handler for narrated reports. -/
def ofNarrated (o : Options) : Except OptionError Handler := o.resolve.map narrated

/-- The handler for an environment: what is asked for goes before what the environment says. -/
def ofEnvironment (o : Options) (e : Environment) (isTerminal : Bool) :
    Except OptionError Handler :=
  let asked := o.orElse e.options
  match Mode.detect e isTerminal with
  | .narrated => ofNarrated asked
  | .plain => ofGraphical (asked.orElse { theme := some .unicodePlain })
  | .graphical => ofGraphical (asked.orElse { theme := some .unicode })

/-- The lines of a report, as they are written one after the other. -/
def lines {κ : Type} [Coordinate κ] (h : Handler) (report : Report κ) :
    Except (SpanError κ) (List (List Char)) :=
  match h with
  | graphical handler => Graphical.lines handler.settings report
  | narrated settings => Narrated.lines settings report

/-- Lines as they are written. -/
def written (lines : List (List Char)) : List (List Char) := lines.map (· ++ ['\n'])

/-- The text of a report. -/
def text {κ : Type} [Coordinate κ] (h : Handler) (report : Report κ) :
    Except (SpanError κ) (List Char) :=
  (h.lines report).map fun lines => (written lines).flatten

end Handler

end Marginalia
