import Marginalia.Span.Basic

/-!
# Labels

A label marks a span with a text, and may claim to be the one that its snippet is headed by.
-/

namespace Marginalia

/-- A span with what is said about it. -/
structure Label (κ : Type) where
  span : Span κ
  text : Option String := none
  /-- Whether the label heads its snippet, as far as anything was said about that. -/
  primary : Option Bool := none
deriving DecidableEq

namespace Label

variable {κ : Type}

/-- Whether the label claims to head its snippet. -/
def isPrimary (l : Label κ) : Bool := l.primary = some true

variable [Coordinate κ]

/-- A label on a checked span. -/
def create (offset length : κ) (text : Option String) (primary : Option Bool := none) :
    Except (SpanError κ) (Label κ) :=
  (Span.create offset length).map (⟨·, text, primary⟩)

/-- Whether the order of spans allows `a` in front of `b`. -/
def precedes (a b : Label κ) : Bool := a.span.precedes b.span

/-- What is said about a label that its source does not reach. -/
def unreadableNotice (l : Label κ) : String :=
  "Failed to read contents for label '" ++ l.text.getD "<none>" ++ "' " ++ l.span.describe ++
    ": OutOfBounds"

end Label

end Marginalia
