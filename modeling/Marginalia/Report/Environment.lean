import Marginalia.Report.Options
import Marginalia.Text.Blank

/-!
# Environment

What environment variables say about reports: the columns to wrap at and the tab stops, and
together with the kind of output, the mode of rendering.
-/

namespace Marginalia

/-- Environment variables. -/
structure Environment where
  /-- The value of a variable, if it is set. -/
  value? : String → Option String

namespace Environment

/-- A positive number in decimal digits with blanks around it; anything else is ignored. -/
def positive? (value : String) : Option Number :=
  let digits := Text.trim value.toList
  if digits.isEmpty ∨ ¬ digits.all Char.isDigit then none
  else
    match Nat.ofDigitChars 10 digits 0 with
    | 0 => none
    | n + 1 => some (.ofNat (n + 1))

/-- The options that the environment sets. -/
def options (e : Environment) : Options where
  width := (e.value? "COLUMNS").bind positive?
  tab := (e.value? "SPANLIGHT_TAB_WIDTH").bind positive?

/-- Whether a variable is switched on. -/
def isOn (e : Environment) (name : String) : Bool :=
  match e.value? name with
  | some value => value ≠ "" ∧ value ≠ "0"
  | none => false

end Environment

/-- A way of rendering. -/
inductive Mode where
  /-- Glyphs in colour. -/
  | graphical
  /-- Glyphs without escapes. -/
  | plain
  /-- Words, for screen readers and logs. -/
  | narrated
deriving DecidableEq

namespace Mode

/-- The name of a mode. -/
def name : Mode → String
  | graphical => "graphical"
  | plain => "graphical-plain"
  | narrated => "narratable"

/-- The mode for an environment.  A wish for no colour comes first, then a wish for colour; else
colour is for terminals outside of automatic builds, and everything else is narrated. -/
def detect (e : Environment) (isTerminal : Bool) : Mode :=
  if e.isOn "NO_COLOR" then plain
  else if e.isOn "CLICOLOR_FORCE" ∨ e.isOn "FORCE_COLOR" then graphical
  else if ¬ isTerminal ∨ e.isOn "CI" then narrated
  else graphical

end Mode

end Marginalia
