import Marginalia.Source.Basic
import Marginalia.Span.Sorted

/-!
# Windows

Labels whose lines overlap or touch, context included, are shown together.  The labels are taken
in the order of their spans; each one is read on its own and joins the window in hand if that
window reaches its first line and the union of both can be read.  Labels that cannot be read are
set aside and take no part.
-/

namespace Marginalia

/-- Labels that are shown together. -/
structure Window (κ : Type) where
  /-- The union of the spans of the labels. -/
  span : Span κ
  /-- The labels in the order of their spans. -/
  labels : List (Label κ)
  /-- The label that heads the window. -/
  anchor : Label κ
  /-- Index of the line of the anchor. -/
  line : Nat
  /-- Bytes of that line in front of the anchor. -/
  column : κ
  /-- What is read for the span. -/
  contents : Contents κ
deriving DecidableEq

/-- A label that cannot be read. -/
structure Failure (κ : Type) where
  label : Label κ
  error : SpanError κ
deriving DecidableEq

/-- Labels sorted into windows. -/
structure Merge (κ : Type) where
  windows : List (Window κ)
  failures : List (Failure κ)
deriving DecidableEq

/-- A window that may still grow. -/
structure Draft (κ : Type) where
  span : Span κ
  contents : Contents κ
  first : Label κ
  /-- The labels behind the first one, the latest in front. -/
  others : List (Label κ)

variable {κ : Type}

namespace Draft

/-- A window of one label. -/
def ofLabel (label : Label κ) (contents : Contents κ) : Draft κ :=
  ⟨label.span, contents, label, []⟩

/-- The labels in the order in which they came. -/
def labels (d : Draft κ) : List (Label κ) := d.first :: d.others.reverse

/-- The label that heads a window: the first primary one, or else the first one. -/
def anchorOf (first : Label κ) (labels : List (Label κ)) : Label κ :=
  (labels.find? Label.isPrimary).getD first

/-- Whether the window reaches the first line read for another label. -/
def touches (d : Draft κ) (contents : Contents κ) : Bool := contents.line ≤ d.contents.reach

/-- The window with one more label, whose union with it has been read. -/
def extend (d : Draft κ) (label : Label κ) (span : Span κ) (contents : Contents κ) : Draft κ :=
  ⟨span, contents, d.first, label :: d.others⟩

variable [Coordinate κ]

/-- The window as it is. -/
def finish (bytes : List UInt8) (d : Draft κ) : Except (SpanError κ) (Window κ) := do
  let anchor := anchorOf d.first d.labels
  let (line, column) ← Contents.locate bytes anchor.span.offset
  return ⟨d.span, d.labels, anchor, line, column, d.contents⟩

/-- The window grown by a label with the given contents, if it can grow. -/
def join (bytes : List UInt8) (before : Int) (after : Nat) (d : Draft κ) (label : Label κ)
    (contents : Contents κ) : Except (SpanError κ) (Option (Draft κ)) :=
  if d.touches contents then
    (d.span.union label.span).map fun span =>
      match Contents.read bytes span before after with
      | .ok read => some (d.extend label span read)
      | .error _ => none
  else .ok none

end Draft

namespace Merge

/-- One more window in front. -/
def addWindow (w : Window κ) (m : Merge κ) : Merge κ := { m with windows := w :: m.windows }

/-- One more failure in front. -/
def addFailure (f : Failure κ) (m : Merge κ) : Merge κ := { m with failures := f :: m.failures }

variable [Coordinate κ]

/-- Sorted labels as windows, with a window in hand. -/
def ofSorted (bytes : List UInt8) (before : Int) (after : Nat) :
    Option (Draft κ) → List (Label κ) → Except (SpanError κ) (Merge κ)
  | none, [] => .ok ⟨[], []⟩
  | some draft, [] => (draft.finish bytes).map fun window => ⟨[window], []⟩
  | current, label :: rest =>
    match Contents.read bytes label.span before after with
    | .error error => (ofSorted bytes before after current rest).map (addFailure ⟨label, error⟩)
    | .ok contents =>
      let fresh := Draft.ofLabel label contents
      match current with
      | none => ofSorted bytes before after (some fresh) rest
      | some draft => do
        match ← draft.join bytes before after label contents with
        | some grown => ofSorted bytes before after (some grown) rest
        | none =>
          let window ← draft.finish bytes
          let merge ← ofSorted bytes before after (some fresh) rest
          return merge.addWindow window

/-- Labels as windows with `before` and `after` lines of context. -/
def ofLabels (bytes : List UInt8) (labels : List (Label κ)) (before : Int) (after : Nat) :
    Except (SpanError κ) (Merge κ) :=
  ofSorted bytes before after none (Label.sort labels)

end Merge

namespace Window

variable [Coordinate κ]

/-- A point at the very end of a source that ends with a line feed moves back in front of the
terminator, so that it is shown behind the text of the last line. -/
def settle (bytes : List UInt8) (label : Label κ) : Label κ :=
  let back (count : Nat) : Label κ :=
    { label with span := { label.span with offset := label.span.offset - (count : κ) } }
  if label.span.isPoint ∧ Coordinate.Same label.span.offset (bytes.length : κ) then
    match bytes.reverse with
    | 0x0A :: 0x0D :: _ => back 2
    | 0x0A :: _ => back 1
    | _ => label
  else label

/-- The windows of the labels on a source. -/
def ofSource (source : Source) (labels : List (Label κ)) (before : Int) (after : Nat) :
    Except (SpanError κ) (Merge κ) :=
  Merge.ofLabels source.bytes (labels.map (settle source.bytes)) before after

/-- The contents of a window from the beginning of its first line: without lines of context in
front they begin at the span and are read again from the beginning of its line. -/
def aligned (source : Source) (w : Window κ) (before : Int) (after : Nat) :
    Except (SpanError κ) (Contents κ) :=
  if Coordinate.Same w.contents.column ((0 : Nat) : κ) then .ok w.contents
  else
    let start := w.span.offset - w.contents.column
    source.read ⟨start, w.span.stop - start⟩ before after

end Window

end Marginalia
