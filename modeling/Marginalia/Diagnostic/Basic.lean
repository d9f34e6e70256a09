import Marginalia.Diagnostic.Cause
import Marginalia.Source.Basic
import Marginalia.Span.Label
import Marginalia.Theme

/-!
# Diagnostics

A diagnostic says something about a source and may carry related diagnostics, which may carry
others in turn.  The tree is the same before and after its labels and causes are checked; only
what stands for a label and for a cause differs.
-/

namespace Marginalia

/-- What one diagnostic says, with labels `L` and a cause `C`. -/
structure Facts (L C : Type) where
  message : String
  code : Option String := none
  severity : Option Severity := none
  help : Option String := none
  url : Option String := none
  source : Option Source := none
  labels : Option (List L) := none
  cause : C

/-- What a diagnostic says once it can be reported. -/
abbrev Statement (κ : Type) := Facts (Label κ) (List Link)

/-- A diagnostic, alone or with a list of related ones. -/
inductive Diagnostic (L C : Type) where
  | alone (facts : Facts L C)
  | group (facts : Facts L C) (related : List (Diagnostic L C))

/-- A diagnostic that can be reported. -/
abbrev Report (κ : Type) := Diagnostic (Label κ) (List Link)

namespace Facts

variable {L C : Type}

/-- The severity, also where none is given. -/
def graveness (f : Facts L C) : Severity := f.severity.getD .standard

/-- The labels, also where none are given. -/
def allLabels (f : Facts L C) : List L := f.labels.getD []

end Facts

namespace Diagnostic

variable {L C : Type}

/-- What the diagnostic itself says. -/
def facts : Diagnostic L C → Facts L C
  | alone facts => facts
  | group facts _ => facts

end Diagnostic

end Marginalia
