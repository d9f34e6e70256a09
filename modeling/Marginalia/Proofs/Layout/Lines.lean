import Marginalia.Proofs.Layout.Relation
import Marginalia.Proofs.Source.Reading
import Marginalia.Proofs.Source.Spelling

/-!
# Relations told by lines

Line by line a window compares the bytes of a span with those of the line.  In well-formed text the
outcome depends on three indices only: that of the line of the first byte of the span, that of the
line of its last byte, and that of the line itself.  So a span that takes a connector does so on the
lines from the first one to the last one, which differ.
-/

namespace Marginalia

namespace Span

/-- Index of the line of the first byte of a span. -/
def firstLine (bytes : List UInt8) (s : Span Int) : Nat := Extent.lineAt bytes s.offset.toNat

/-- Index of the line of the last byte of a span. -/
def lastLine (bytes : List UInt8) (s : Span Int) : Nat :=
  Extent.lineAt bytes (Contents.lastByte s).toNat

theorem firstLine_le_lastLine (bytes : List UInt8) (s : Span Int) :
    s.firstLine bytes ≤ s.lastLine bytes :=
  Extent.lineAt_mono (Int.toNat_le_toNat (Contents.offset_le_lastByte s))

end Span

namespace Relation

/-- What a span from a first to a last line is to the line with an index. -/
def atLine (first last index : Nat) : Relation :=
  if index < first ∨ last < index then .none
  else if first = last then .contained
  else if index = first then .starts
  else if index = last then .ends
  else .passes

variable {first last index : Nat}

/-- A span takes a connector if it is one of several lines, and then beside all of them. -/
theorem isMultiLine_atLine :
    (atLine first last index).isMultiLine = true ↔
      first < last ∧ first ≤ index ∧ index ≤ last := by
  unfold atLine
  repeat' split
  all_goals simp only [isMultiLine, Bool.false_eq_true, false_iff, true_iff]
  all_goals omega

theorem atLine_eq_starts : atLine first last index = .starts ↔ first < last ∧ index = first := by
  unfold atLine
  repeat' split
  all_goals simp only [reduceCtorEq, false_iff, true_iff]
  all_goals omega

theorem atLine_eq_ends : atLine first last index = .ends ↔ first < last ∧ index = last := by
  unfold atLine
  repeat' split
  all_goals simp only [reduceCtorEq, false_iff, true_iff]
  all_goals omega

theorem atLine_eq_passes : atLine first last index = .passes ↔ first < index ∧ index < last := by
  unfold atLine
  repeat' split
  all_goals simp only [reduceCtorEq, false_iff, true_iff]
  all_goals omega

theorem atLine_self : atLine first first index = if first = index then .contained else .none := by
  unfold atLine
  repeat' split
  all_goals first | rfl | omega

end Relation

namespace Line

variable {bytes : List UInt8} {line : Line Int} {extent : Extent} {s : Span Int} {i start : Nat}

/-- A line made of one of the source, and not in front of a point, contains the point if it holds
it. -/
theorem classify_point (spells : line.Spells bytes (extent.cutAt start)) (point : s.length = 0)
    (begun : (start : Int) ≤ s.offset) :
    Relation.classify line s = if extent.Holds s.offset then .contained else .none := by
  have offset_eq : line.offset = (max start extent.start : Nat) := spells.offset_eq
  have stop_eq : line.stop = extent.stop := spells.stop_eq
  have atEnd_iff : line.atEnd = true ↔ extent.terminator = 0 := spells.atEnd_iff
  have holds_iff : extent.Holds s.offset ↔ line.offset ≤ s.offset ∧
      (s.offset < line.stop ∨ line.atEnd = true ∧ Coordinate.Same s.offset line.stop) := by
    rw [Extent.Holds, Coordinate.Same, Coordinate.Same, stop_eq, atEnd_iff]
    omega
  unfold Relation.classify
  rw [if_pos ((Span.isPoint_iff s).mpr point)]
  simp only [holds_iff]
  repeat' split
  all_goals first | rfl | grind

/-- A line made of one of the source stands to a span that does not begin in front of the window as
the indices of their lines tell. -/
theorem classify_eq_atLine (found : (Extent.table bytes)[i]? = some extent)
    (spells : line.Spells bytes (extent.cutAt start)) (filled : line.offset < line.stop)
    (inside : s.Inside bytes) (begun : (start : Int) ≤ s.offset) :
    Relation.classify line s = .atLine (s.firstLine bytes) (s.lastLine bytes) i := by
  obtain ⟨offset, offset_eq⟩ := Int.eq_ofNat_of_zero_le inside.offset
  have offset_le : s.offset ≤ s.stop := by
    have := inside.length
    rw [s.stop_eq]
    omega
  have within := inside.stop
  have first_eq : s.firstLine bytes = Extent.lineAt bytes offset := by
    rw [Span.firstLine, offset_eq]
    rfl
  by_cases point : s.length = 0
  · have last_eq : s.lastLine bytes = s.firstLine bytes := by
      rw [Span.lastLine, Contents.lastByte_eq, if_neg (by omega), Span.firstLine]
    have holds := Extent.holds_iff_lineAt_eq found (show offset ≤ bytes.length by omega)
    rw [classify_point spells point begun, last_eq, Relation.atLine_self, offset_eq, first_eq]
    simp only [holds]
  · have length : 0 < s.length := by
      have := inside.length
      omega
    have offset_lt : s.offset < s.stop := by
      rw [s.stop_eq]
      omega
    obtain ⟨last, last_eq⟩ := Int.eq_ofNat_of_zero_le (show 0 ≤ s.stop - 1 by omega)
    have lastLine_eq : s.lastLine bytes = Extent.lineAt bytes last := by
      rw [Span.lastLine, Contents.lastByte_eq, if_pos length, last_eq]
      rfl
    have line_offset : line.offset = (max start extent.start : Nat) := spells.offset_eq
    have line_stop : line.stop = extent.stop := spells.stop_eq
    -- each comparison with the line is one of the index of a line
    have begins := Extent.start_le_iff_le_lineAt found (show offset ≤ bytes.length by omega)
    have reaches := Extent.start_le_iff_le_lineAt found (show last ≤ bytes.length by omega)
    have stops := Extent.lt_stop_iff_lineAt_le found (show offset < bytes.length by omega)
    have covers := Extent.lt_stop_iff_lineAt_le found (show last < bytes.length by omega)
    have ordered := Span.firstLine_le_lastLine bytes s
    rw [← first_eq] at begins stops
    rw [← lastLine_eq] at reaches covers
    rw [Relation.classify_eq filled length]
    unfold Relation.atLine
    repeat' split
    all_goals first | rfl | omega

end Line

end Marginalia
