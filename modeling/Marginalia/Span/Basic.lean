import Marginalia.Number.Coordinate

/-!
# Spans

A span is a run of bytes of a source, given by where it begins and how long it is; a span without
length is a point.  Spans from outside are checked by `Span.create`; the pipeline itself also
takes spans that nobody has checked, so the parts of a span may be coordinates of any kind.
-/

namespace Marginalia

/-- The bytes from `offset` up to and without `offset + length`. -/
structure Span (κ : Type) where
  offset : κ
  length : κ
deriving DecidableEq

/-- Why a span cannot be used. -/
inductive SpanError (κ : Type) where
  /-- The span ends behind the last byte of its source. -/
  | exceeds (span : Span κ) (size : Nat)
  /-- No line of the source holds the beginning of the span. -/
  | unlocated (span : Span κ)
  /-- The parts are not byte counts, or too large to be added. -/
  | invalid (span : Span κ)
deriving DecidableEq

variable {κ : Type}

namespace SpanError

/-- The span at fault, as it was given. -/
def span : SpanError κ → Span κ
  | exceeds span _ | unlocated span | invalid span => span

/-- Whether the span lies outside its source, rather than being no span at all. -/
def isOutOfBounds : SpanError κ → Bool
  | exceeds _ _ | unlocated _ => true
  | invalid _ => false

/-- The name of the kind of error. -/
def code (e : SpanError κ) : String :=
  if e.isOutOfBounds then "OutOfBounds" else "InvalidSpan"

end SpanError

variable [Coordinate κ]

namespace Span

/-- The byte behind the span. -/
def stop (s : Span κ) : κ := s.offset + s.length

/-- Whether the span is a point. -/
def isPoint (s : Span κ) : Bool := Coordinate.Same s.length ((0 : Nat) : κ)

/-- A span that can be trusted: its parts are byte counts, and so is its end. -/
def Valid (s : Span κ) : Prop :=
  Coordinate.isCount s.offset ∧ Coordinate.isCount s.length ∧ Coordinate.isCount s.stop

instance (s : Span κ) : Decidable s.Valid := inferInstanceAs (Decidable (_ ∧ _ ∧ _))

/-- The span itself if it is valid. -/
def checked (s : Span κ) : Except (SpanError κ) (Span κ) :=
  if s.Valid then .ok s else .error (.invalid s)

/-- A span from its parts, if they make a valid one. -/
def create (offset length : κ) : Except (SpanError κ) (Span κ) := checked ⟨offset, length⟩

/-- The smallest span that covers two spans, if it is a valid one. -/
def union (a b : Span κ) : Except (SpanError κ) (Span κ) :=
  let offset := min a.offset b.offset
  create offset (max a.stop b.stop - offset)

/-- Whether two spans share a byte.  A point lies in a span that begins at or before it and ends
behind it, and meets a point at its own place. -/
def intersects (a b : Span κ) : Bool :=
  if a.isPoint ∧ b.isPoint then Coordinate.Same a.offset b.offset
  else if a.isPoint then b.offset ≤ a.offset ∧ a.offset < b.stop
  else if b.isPoint then a.offset ≤ b.offset ∧ b.offset < a.stop
  else a.offset < b.stop ∧ b.offset < a.stop

/-- Spans are ordered by where they begin; of two that begin together the longer comes first. -/
def order (a b : Span κ) : Ordering :=
  if a.offset < b.offset then .lt
  else if b.offset < a.offset then .gt
  else if b.length < a.length then .lt
  else if a.length < b.length then .gt
  else .eq

/-- Whether the order allows `a` in front of `b`. -/
def precedes (a b : Span κ) : Bool := (order a b).isLE

/-- The parts of a span in words. -/
def describe (s : Span κ) : String :=
  "(offset: " ++ Coordinate.text s.offset ++ ", length: " ++ Coordinate.text s.length ++ ")"

end Span

/-- The text of the error. -/
def SpanError.message : SpanError κ → String
  | exceeds span size =>
    "Span " ++ span.describe ++ " exceeds source of " ++ toString size ++ " bytes"
  | unlocated span => "Span " ++ span.describe ++ " could not be located"
  | invalid span => "Invalid span " ++ span.describe

end Marginalia
