import Marginalia.Diagnostic.Basic

/-!
# Building diagnostics

A diagnostic from outside is checked before it is reported: every label must be a valid span, and
the first that is not is refused, the labels of a diagnostic before those of its related ones.  A
severity is filled in and a thrown cause becomes a chain.
-/

namespace Marginalia

/-- The label, if its span is valid; only a claim to be primary is kept. -/
def Label.build {κ : Type} [Coordinate κ] (l : Label κ) : Except (SpanError κ) (Label κ) :=
  Label.create l.span.offset l.span.length l.text
    (if l.isPrimary then some true else none)

/-- A cause as it comes from outside. -/
inductive CauseInput where
  | chain (links : List Link)
  | thrown (value : Thrown)

namespace CauseInput

/-- The chain of a cause. -/
def build : CauseInput → List Link
  | chain links => links
  | thrown value => value.chain

end CauseInput

/-- A diagnostic as it comes from outside. -/
abbrev DiagnosticInput (κ : Type) := Diagnostic (Label κ) CauseInput

variable {κ : Type} [Coordinate κ]

namespace Facts

/-- What a diagnostic says, checked. -/
def build (f : Facts (Label κ) CauseInput) : Except (SpanError κ) (Statement κ) := do
  let labels ←
    match f.labels with
    | none => pure none
    | some labels => some <$> labels.mapM Label.build
  return { f with severity := some f.graveness, labels, cause := f.cause.build }

end Facts

namespace Diagnostic

mutual

/-- A diagnostic with everything related to it, checked. -/
def build : DiagnosticInput κ → Except (SpanError κ) (Report κ)
  | alone facts => alone <$> facts.build
  | group facts related => do
    let facts ← facts.build
    let related ← buildAll related
    return group facts related

/-- Diagnostics one after the other, checked. -/
def buildAll : List (DiagnosticInput κ) → Except (SpanError κ) (List (Report κ))
  | [] => return []
  | diagnostic :: rest => do
    let diagnostic ← diagnostic.build
    let rest ← buildAll rest
    return diagnostic :: rest

end

end Diagnostic

end Marginalia
