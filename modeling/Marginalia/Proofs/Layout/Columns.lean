import Marginalia.Layout.Columns
import Marginalia.Proofs.Span.Basic
import Marginalia.Proofs.Text.Column

/-!
# The order of columns

The column of a byte does not go back as the byte goes on, be it between characters, inside one or
behind the content.  So spans begin in the order of their offsets.  A span that takes a column of the
line ends at the column of its last byte, and what begins behind it is drawn to the right of it.
-/

namespace Marginalia

/-- Told as a start or as an end, a byte further behind stands in no column further in front. -/
theorem Text.displayColumn_mono {byte byte' : Int} (le : byte ≤ byte') (tab : Nat)
    (content : List Char) (isStart : Bool) :
    displayColumn tab content byte isStart ≤ displayColumn tab content byte' isStart :=
  Nat.add_le_add_right (columnOf_mono le tab content) _

namespace Columns

theorem start_le_middle (c : Columns) : c.start ≤ c.middle := Nat.le_add_right _ _

theorem middle_lt_stop {c : Columns} (wide : c.start < c.stop) : c.middle < c.stop := by
  unfold middle
  omega

variable (tab : Nat) (line : Line Int) {s t : Span Int}

theorem start_lt_stop (s : Span Int) : (ofSpan tab line s).start < (ofSpan tab line s).stop := by
  unfold ofSpan
  dsimp only
  omega

theorem start_mono (le : s.offset ≤ t.offset) :
    (ofSpan tab line s).start ≤ (ofSpan tab line t).start :=
  Text.columnOf_mono (Int.sub_le_sub_right le _) tab line.content

/-- A span that takes a column ends at the column of its end, without the one that is there for
others. -/
theorem stop_eq {isStart : Bool}
    (wide : Text.displayColumn tab line.content (s.offset - line.offset) isStart <
      Text.displayColumn tab line.content (s.stop - line.offset) isStart) :
    (ofSpan tab line s).stop = Text.columnOf tab line.content (s.stop - line.offset) := by
  have columns_lt := Nat.lt_of_add_lt_add_right wide
  have not_point : s.isPoint = false := by
    rw [Bool.eq_false_iff]
    intro point
    have empty : s.length = 0 := s.isPoint_iff.mp point
    have stays : s.stop = s.offset := by rw [Span.stop, empty]; exact Int.add_zero _
    rw [stays] at columns_lt
    exact Nat.lt_irrefl _ columns_lt
  unfold ofSpan
  rw [not_point]
  exact Nat.max_eq_left columns_lt

/-- A line of two characters, the second one of three bytes, with a terminator of two. -/
def terminated : Line Int where
  number := 1
  offset := 10
  length := 6
  text := ['a', '漢', '\r', '\n']
  content := ['a', '漢']
  atEnd := false

end Columns

end Marginalia
