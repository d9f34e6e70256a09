import Marginalia.Snippet.Drawing

/-!
# Options

What a caller may ask of a report, and the settings that come out of it.  Everything that is left
open has a standard value; counts are checked one after the other, and the first that is no
integer or too small is refused.
-/

namespace Marginalia

/-- Lines of context, the same on both sides or not. -/
inductive Context where
  | both (lines : Number)
  | sides (before after : Number)

/-- What a caller asks for; what is left out is up to the report. -/
structure Options where
  context : Option Context := none
  width : Option Number := none
  tab : Option Number := none
  theme : Option Theme := none
  links : Option Bool := none
  footer : Option String := none
  depthLimit : Option Number := none
  highlighter : Option Highlighter := none

/-- An option that cannot be used. -/
structure OptionError where
  option : String
  /-- The least value that can be used. -/
  least : Nat
  value : Number
deriving DecidableEq

namespace OptionError

/-- The text of the error. -/
def message (e : OptionError) : String :=
  "Option \"" ++ e.option ++ "\" must be an integer >= " ++ toString e.least ++ ", got " ++
    e.value.text

end OptionError

/-- How a report is made. -/
structure Settings where
  manner : Manner
  /-- Columns to wrap text at. -/
  width : Nat
  /-- Whether links are written as links. -/
  links : Bool
  footer : Option String
  /-- How deep related diagnostics are followed. -/
  depthLimit : Nat

namespace Options

/-- A count that is an integer and at least `least`. -/
def count (option : String) (least : Nat) (value : Number) : Except OptionError Nat :=
  match value.natural? with
  | some n => if least ≤ n then .ok n else .error ⟨option, least, value⟩
  | none => .error ⟨option, least, value⟩

/-- Lines of context where nothing else is asked for. -/
def standardContext : Number := .ofNat 1

/-- Columns of text where nothing else is asked for. -/
def standardWidth : Number := .ofNat 80

/-- The depth of related diagnostics where nothing else is asked for. -/
def standardDepth : Number := .ofNat 16

/-- The numbers of lines of context asked for, in front and behind. -/
def contextLines (o : Options) : Number × Number :=
  match o.context with
  | some (.both lines) => (lines, lines)
  | some (.sides before after) => (before, after)
  | none => (standardContext, standardContext)

/-- The settings that follow from options. -/
def resolve (o : Options) : Except OptionError Settings := do
  let before ← count "contextLines.before" 0 o.contextLines.1
  let after ← count "contextLines.after" 0 o.contextLines.2
  let width ← count "width" 1 (o.width.getD standardWidth)
  let tab ← count "tabWidth" 1 (o.tab.getD (.ofNat Text.defaultTab))
  let depth ← count "maxRelatedDepth" 0 (o.depthLimit.getD standardDepth)
  return {
    manner := {
      before, after, tab
      theme := o.theme.getD .unicode
      highlighter := o.highlighter.getD .plain }
    width
    links := o.links.getD true
    footer := o.footer
    depthLimit := depth }

/-- What is asked for, and where that leaves something open, what others ask for. -/
def orElse (o others : Options) : Options where
  context := o.context <|> others.context
  width := o.width <|> others.width
  tab := o.tab <|> others.tab
  theme := o.theme <|> others.theme
  links := o.links <|> others.links
  footer := o.footer <|> others.footer
  depthLimit := o.depthLimit <|> others.depthLimit
  highlighter := o.highlighter <|> others.highlighter

end Options

end Marginalia
