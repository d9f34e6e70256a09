import Marginalia.Proofs.Span.Basic
import Marginalia.Snippet.Window

/-!
# Points at the end of a source

A point at the end of a source that ends with a line feed moves back in front of the terminator.  It
is the only label that moves, and it stays a valid one.
-/

namespace Marginalia.Window

open Extent (lineFeed carriageReturn)

variable {bytes front : List UInt8} {l : Label Int}

/-- A label moved back by some bytes. -/
def back (l : Label Int) (count : Int) : Label Int :=
  { l with span := { l.span with offset := l.span.offset - count } }

/-- Whether a label is a point at the end of a source. -/
def AtEnd (bytes : List UInt8) (l : Label Int) : Prop :=
  l.span.isPoint = true ∧ Coordinate.Same l.span.offset (bytes.length : Int)

theorem settle_of_not_atEnd (away : ¬AtEnd bytes l) : settle bytes l = l := if_neg away

theorem settle_of_returned (atEnd : AtEnd (front ++ [carriageReturn, lineFeed]) l) :
    settle (front ++ [carriageReturn, lineFeed]) l = back l 2 := by
  have reversed : (front ++ [carriageReturn, lineFeed]).reverse =
      lineFeed :: carriageReturn :: front.reverse := by simp
  refine (if_pos atEnd).trans ?_
  rw [reversed]
  rfl

theorem settle_of_fed (atEnd : AtEnd (front ++ [lineFeed]) l)
    (plain : front.getLast? ≠ some carriageReturn) :
    settle (front ++ [lineFeed]) l = back l 1 := by
  have reversed : (front ++ [lineFeed]).reverse = lineFeed :: front.reverse := by simp
  rw [List.getLast?_eq_head?_reverse] at plain
  refine (if_pos atEnd).trans ?_
  rw [reversed]
  split
  · rename_i rest eq
    rw [(List.cons.inj eq).2] at plain
    exact absurd rfl plain
  · rfl
  · rename_i other
    exact absurd rfl (other front.reverse)

theorem settle_of_unended (unended : bytes.getLast? ≠ some lineFeed) : settle bytes l = l := by
  rw [List.getLast?_eq_head?_reverse] at unended
  unfold settle
  dsimp only
  split
  · split
    · rename_i eq
      rw [eq] at unended
      exact absurd rfl unended
    · rename_i eq
      rw [eq] at unended
      exact absurd rfl unended
    · rfl
  · rfl

/-- A label with bytes stays where it is. -/
theorem settle_of_length_pos (length : 0 < l.span.length) : settle bytes l = l := by
  refine settle_of_not_atEnd fun atEnd => ?_
  rw [AtEnd, Span.isPoint_of_length_pos length] at atEnd
  exact Bool.false_ne_true atEnd.1

/-- A point that moves back in front of a terminator stays within the source. -/
theorem settle_valid {l : Label Int} (valid : l.span.Valid) : (settle bytes l).span.Valid := by
  have back (count : Nat) (le : count ≤ bytes.length)
      (atEnd : Coordinate.Same l.span.offset (bytes.length : Int)) :
      (⟨l.span.offset - (count : Int), l.span.length⟩ : Span Int).Valid := by
    rw [Span.valid_iff, Span.stop_eq] at valid ⊢
    simp only [Coordinate.Same] at *
    omega
  unfold settle
  dsimp only
  split
  · rename_i atEnd
    split
    · rename_i rest reversed
      have length_eq := congrArg List.length reversed
      simp only [List.length_reverse, List.length_cons] at length_eq
      exact back 2 (by omega) atEnd.2
    · rename_i rest _ reversed
      have length_eq := congrArg List.length reversed
      simp only [List.length_reverse, List.length_cons] at length_eq
      exact back 1 (by omega) atEnd.2
    · exact valid
  · exact valid

theorem settle_stop_le (l : Label Int) : (settle bytes l).span.stop ≤ l.span.stop := by
  unfold settle
  dsimp only
  split
  · split <;> simp only [Span.stop_eq] <;> omega
  · exact Int.le_refl _

theorem settled_valid {labels : List (Label Int)} (valid : ∀ l ∈ labels, l.span.Valid) :
    ∀ l ∈ labels.map (settle bytes), l.span.Valid := by
  intro l member
  obtain ⟨k, k_member, rfl⟩ := List.mem_map.mp member
  exact settle_valid (valid k k_member)

end Marginalia.Window
