import Marginalia.Sorting.Pending
import Marginalia.Span.Label

/-!
# Sorted labels

Labels are sorted by their spans, and labels on equal spans keep their order.  A span with a part
that is no number stands in no order to others, so with such a span among them no list of labels
is sorted.  What becomes of the labels then is up to the comparisons that are made.
-/

namespace Marginalia.Label

variable {κ : Type} [Coordinate κ]

/-- Whether the parts of the span of a label can be compared with others. -/
def isComparable (l : Label κ) : Bool :=
  Coordinate.Same l.span.offset l.span.offset ∧ Coordinate.Same l.span.length l.span.length

/-- Whether the order of spans asks for `a` in front of `b`. -/
def comesBefore (a b : Label κ) : Bool := a.span.order b.span = .lt

/-- Labels in the order of their spans; labels on equal spans keep their order. -/
def sort (labels : List (Label κ)) : List (Label κ) :=
  if labels.all isComparable then labels.mergeSort precedes
  else Sorting.sortRuns comesBefore labels

end Marginalia.Label
