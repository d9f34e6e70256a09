import Marginalia.Layout.Columns
import Marginalia.Proofs.Span.Moved
import Marginalia.Proofs.Text.Column

/-!
# Lines and spans moved together

A line whose ends are moved as the spans are lies to them as it did before.  If moreover the bytes
of its content are all moved equally far, then each span has the columns that it had.
-/

namespace Marginalia

variable (f : Motion) {line line' : Line Int}

theorem Relation.classify_moved (offset_eq : line'.offset = f.place line.offset)
    (stop_eq : line'.stop = f.place line.stop) (atEnd_eq : line'.atEnd = line.atEnd)
    (s : Span Int) : classify line' (s.moved f) = classify line s := by
  simp only [classify, Span.isPoint_moved, Span.offset_moved, Span.stop_moved, offset_eq, stop_eq,
    atEnd_eq, f.place_lt_iff, f.place_le_iff, f.same_place_iff]

/-! ## Columns -/

namespace Text

variable {tab : Nat} {content : List Char} {byte : Int}

theorem columnOf_of_nonpos (before : byte ≤ 0) : columnOf tab content byte = 0 := by
  have not_behind : ¬((Utf8.length content : Nat) : Int) < byte := by omega
  rw [columnOf_eq_walk, if_neg not_behind]
  cases content with
  | nil => rfl
  | cons c rest => exact if_pos before

theorem columnOf_of_behind (behind : (Utf8.length content : Int) < byte) :
    columnOf tab content byte = width tab content + 1 :=
  if_pos behind

/-- Whether the bytes of a text at some place stay together, the byte behind it included. -/
def Together (origin : Int) (content : List Char) : Prop :=
  ∀ k : Nat, k ≤ Utf8.length content → f.place (origin + k) = f.place origin + k

theorem columnOf_moved {origin : Int} (together : Together f origin content) (place : Int) :
    columnOf tab content (f.place place - f.place origin) =
      columnOf tab content (place - origin) := by
  have before := f.place_le_iff (x := place) (y := origin)
  have behind := f.place_lt_iff (x := origin + Utf8.length content) (y := place)
  rw [together _ (Nat.le_refl _)] at behind
  by_cases le : place ≤ origin
  · rw [columnOf_of_nonpos (by omega), columnOf_of_nonpos (by omega)]
  · by_cases lt : origin + Utf8.length content < place
    · rw [columnOf_of_behind (by omega), columnOf_of_behind (by omega)]
    · have within := together (place - origin).toNat (by omega)
      have place_eq : origin + ((place - origin).toNat : Int) = place := by omega
      rw [place_eq] at within
      congr 1
      omega

end Text

theorem Columns.ofSpan_moved (offset_eq : line'.offset = f.place line.offset)
    (content_eq : line'.content = line.content)
    (together : Text.Together f line.offset line.content) (tab : Nat) (s : Span Int) :
    ofSpan tab line' (s.moved f) = ofSpan tab line s := by
  simp only [ofSpan, Span.isPoint_moved, Span.offset_moved, Span.stop_moved, offset_eq, content_eq,
    Text.columnOf_moved f together]

end Marginalia
