import Marginalia.Proofs.Layout.Moved
import Marginalia.Proofs.Layout.Relation
import Marginalia.Proofs.Source.Marked

/-!
# Lines behind a byte-order mark

Decoding drops the mark, and the places of the lines of a window are counted from its decoded text.
A window that begins behind the first line has no mark to drop: its lines are moved as its labels
are.  One that begins with the first line has its lines where they would be without the mark, while
its labels are moved; and none of its lines ends where the source does.  Then a label keeps its
relations just if each line has bytes to spare behind the places at which the label begins and ends.
-/

namespace Marginalia

open Marked

namespace Line

/-- A line moved behind the mark. -/
def behindMark (line : Line Int) : Line Int := { line with offset := line.offset + 3 }

/-- A line whose source goes on behind it. -/
def goingOn (line : Line Int) : Line Int := { line with atEnd := false }

theorem stop_behindMark (line : Line Int) : line.behindMark.stop = line.stop + 3 :=
  Int.add_right_comm line.offset 3 line.length

theorem place_behindMark (size number : Nat) (offset : Int) (pieces : List (List Char)) :
    place (size + 3) number (offset + 3) pieces =
      (place size number offset pieces).map behindMark := by
  induction pieces generalizing number offset with
  | nil => rfl
  | cons piece rest ih =>
    have passed : pass (offset + 3) piece = pass offset piece + 3 := by
      rw [pass_eq, pass_eq, Int.add_right_comm]
    have ended : Coordinate.Same (pass offset piece + 3) ((size + 3 : Nat) : Int) ↔
        Coordinate.Same (pass offset piece) (size : Int) := by
      simp only [Coordinate.Same]
      omega
    have length_eq : pass offset piece + 3 - (offset + 3) = pass offset piece - offset := by omega
    simp only [place, passed, length_eq, ended, List.map_cons, ih, behindMark]

/-- No line ends with a source that goes on behind all of them. -/
theorem place_goingOn {size larger : Nat} {offset : Int} {pieces : List (List Char)}
    (number : Nat) (short : offset + Utf8.length pieces.flatten < larger) :
    place larger number offset pieces = (place size number offset pieces).map goingOn := by
  induction pieces generalizing number offset with
  | nil => rfl
  | cons piece rest ih =>
    rw [List.flatten_cons, Utf8.length_append] at short
    have passed := pass_eq offset piece
    have unended : ¬Coordinate.Same (pass offset piece) (larger : Int) := by
      simp only [Coordinate.Same]
      omega
    have behind := @ih (pass offset piece) (number + 1) (by omega)
    simp only [place, List.map_cons, behind, goingOn, unended, decide_false, Bool.and_false]

/-- A line of a window that begins with the line of the given index, once the mark is put in. -/
def marked (first : Nat) (line : Line Int) : Line Int :=
  if first = 0 then line.goingOn else line.behindMark

@[simp] theorem number_marked (first : Nat) (line : Line Int) :
    (line.marked first).number = line.number := by
  rw [marked]
  split <;> rfl

@[simp] theorem content_marked (first : Nat) (line : Line Int) :
    (line.marked first).content = line.content := by
  rw [marked]
  split <;> rfl

/-- The lines of a window, where only the first line of the source has the mark in its bytes. -/
theorem scan_marked {c : Contents Int} {size : Nat}
    (top : c.line = 0 → c.start = 0 ∧ Utf8.length (Utf8.decode c.data) ≤ size ∧
      Utf8.decode (ofBytes c.data) = Utf8.decode c.data) :
    scan c.marked (size + 3) = (scan c size).map (marked c.line) := by
  by_cases first : c.line = 0
  · obtain ⟨start_eq, short, decoded⟩ := top first
    have going_on := @place_goingOn size (size + 3) 0 (pieces (Utf8.decode c.data)) (c.line + 1)
      (by rw [flatten_pieces]; omega)
    have same : marked c.line = goingOn := funext fun line => if_pos first
    rw [same, scan, scan, start_eq, ← going_on]
    simp only [Contents.marked, if_pos first, decoded]
  · have same : marked c.line = behindMark := funext fun line => if_neg first
    rw [same, scan, scan, ← place_behindMark]
    simp only [Contents.marked, if_neg first]

/-- Whether a line has bytes to spare for a mark behind the places at which a span begins and ends,
as far as these are on the line. -/
structure Spares (line : Line Int) (s : Span Int) : Prop where
  begins : Relation.classify line s = .contained ∨ Relation.classify line s = .starts →
    s.offset + 3 < line.stop
  ends : Relation.classify line s = .contained ∨ Relation.classify line s = .ends →
    s.stop + 3 ≤ line.stop

/-- Whether neither the beginning nor the end of a span is in front of a place so closely that the
mark moves it there. -/
structure Clear (s : Span Int) (place : Int) : Prop where
  begins : place ≤ s.offset ∨ s.offset + 3 < place
  ends : 0 < s.length → place < s.stop ∨ s.stop + 3 ≤ place

end Line

namespace Relation

open Line (Clear)

variable {line : Line Int} {s : Span Int}

/-- On a line whose beginning the ends of a span keep clear of, a span with bytes keeps its
relation if its ends have bytes to spare. -/
theorem classify_goingOn_iff_of_bytes (filled : line.offset < line.stop) (length : 0 < s.length)
    (clear : Clear s line.offset) :
    classify line.goingOn (s.moved motion) = classify line s ↔ line.Spares s := by
  have relation := classify_eq filled length
  have relation' : classify line.goingOn (s.moved motion) = _ :=
    @classify_eq line.goingOn _ filled ((Span.length_moved_pos_iff motion s).mpr length)
  have goingOn_offset : line.goingOn.offset = line.offset := rfl
  have goingOn_stop : line.goingOn.stop = line.stop := rfl
  rw [goingOn_offset, goingOn_stop, Span.offset_moved, Span.stop_moved, place_eq, place_eq]
    at relation'
  have begins := clear.begins
  have ends := clear.ends length
  have stop_eq := s.stop_eq
  by_cases apart : line.stop ≤ s.offset ∨ s.stop ≤ line.offset
  · rw [if_pos apart] at relation
    rw [if_pos (by omega)] at relation'
    exact iff_of_true (relation'.trans relation.symm) ⟨by simp [relation], by simp [relation]⟩
  rw [if_neg apart] at relation
  by_cases begun : line.offset ≤ s.offset
  · rw [if_pos begun] at relation
    rw [if_pos (show line.offset ≤ s.offset + 3 by omega)] at relation'
    by_cases ended : s.stop ≤ line.stop
    · rw [if_pos ended] at relation
      by_cases spare : s.stop + 3 ≤ line.stop
      · rw [if_neg (by omega), if_pos spare] at relation'
        exact iff_of_true (relation'.trans relation.symm) ⟨fun _ => by omega, fun _ => spare⟩
      · rw [if_neg spare] at relation'
        refine iff_of_false (fun same => ?_) fun spares => spare (spares.ends (.inl relation))
        rw [relation, relation'] at same
        split at same <;> cases same
    · rw [if_neg ended] at relation
      by_cases spare : s.offset + 3 < line.stop
      · rw [if_neg (by omega), if_neg (by omega)] at relation'
        exact iff_of_true (relation'.trans relation.symm) ⟨fun _ => spare, by simp [relation]⟩
      · rw [if_pos (by omega)] at relation'
        refine iff_of_false (fun same => ?_) fun spares => spare (spares.begins (.inr relation))
        rw [relation, relation'] at same
        cases same
  · rw [if_neg begun] at relation
    rw [if_neg (show ¬line.offset ≤ s.offset + 3 by omega), if_neg (by omega)] at relation'
    by_cases more : line.stop < s.stop
    · rw [if_pos more] at relation
      rw [if_pos (by omega)] at relation'
      exact iff_of_true (relation'.trans relation.symm) ⟨by simp [relation], by simp [relation]⟩
    · rw [if_neg more] at relation
      by_cases spare : s.stop + 3 ≤ line.stop
      · rw [if_neg (by omega)] at relation'
        exact iff_of_true (relation'.trans relation.symm) ⟨by simp [relation], fun _ => spare⟩
      · rw [if_pos (by omega)] at relation'
        refine iff_of_false (fun same => ?_) fun spares => spare (spares.ends (.inr relation))
        rw [relation, relation'] at same
        cases same

/-- The same for a point, which no line has at its end. -/
theorem classify_goingOn_iff_of_point (point : s.length = 0) (clear : Clear s line.offset) :
    classify line.goingOn (s.moved motion) = classify line s ↔ line.Spares s := by
  have begins := clear.begins
  have stop_eq : s.stop = s.offset := by rw [s.stop_eq, point, Int.add_zero]
  have isPoint : s.isPoint = true := (Span.isPoint_iff s).mpr point
  have relation : classify line s = if s.offset < line.offset then none
      else if s.offset < line.stop then contained
      else if Coordinate.Same s.offset line.stop ∧ line.atEnd then contained else none := by
    rw [classify, if_pos isPoint]
  have relation' : classify line.goingOn (s.moved motion) =
      if s.offset + 3 < line.offset then none
      else if s.offset + 3 < line.stop then contained else none := by
    rw [classify, if_pos (by rwa [Span.isPoint_moved])]
    simp only [Line.goingOn, Line.stop, Span.offset_moved, place_eq, Bool.false_eq_true, and_false,
      if_false]
    rfl
  by_cases before : s.offset < line.offset
  · rw [if_pos before] at relation
    rw [if_pos (by omega)] at relation'
    exact iff_of_true (relation'.trans relation.symm) ⟨by simp [relation], by simp [relation]⟩
  rw [if_neg before] at relation
  rw [if_neg (by omega)] at relation'
  by_cases spare : s.offset + 3 < line.stop
  · rw [if_pos (by omega)] at relation
    rw [if_pos spare] at relation'
    exact iff_of_true (relation'.trans relation.symm) ⟨fun _ => spare, fun _ => by omega⟩
  · rw [if_neg spare] at relation'
    rw [relation']
    refine ⟨fun same => ⟨by simp [← same], by simp [← same]⟩, fun spares => ?_⟩
    have missed := mt spares.begins spare
    rw [relation] at missed ⊢
    split at missed
    · exact absurd (.inl rfl) missed
    · split at missed
      · exact absurd (.inl rfl) missed
      · rename_i away unended
        rw [if_neg away, if_neg unended]

theorem classify_goingOn_iff (filled : line.offset < line.stop) (length : 0 ≤ s.length)
    (clear : Clear s line.offset) :
    classify line.goingOn (s.moved motion) = classify line s ↔ line.Spares s := by
  rcases Int.lt_or_eq_of_le length with bytes | point
  · exact classify_goingOn_iff_of_bytes filled bytes clear
  · exact classify_goingOn_iff_of_point point.symm clear

/-- A span that begins on a line starts on it or is contained in it. -/
theorem classify_of_begun (length : 0 ≤ s.length) (begun : line.offset ≤ s.offset)
    (lt_stop : s.offset < line.stop) :
    classify line s = .contained ∨ classify line s = .starts := by
  rcases Int.lt_or_eq_of_le length with bytes | point
  · have stop_eq := s.stop_eq
    rw [classify_eq (by omega) bytes, if_neg (by omega), if_pos begun]
    split
    · exact .inl rfl
    · exact .inr rfl
  · rw [classify, if_pos ((Span.isPoint_iff s).mpr point.symm), if_neg (Int.not_lt.mpr begun),
      if_pos lt_stop]
    exact .inl rfl

/-- A span that has its last byte on a line ends on it or is contained in it. -/
theorem classify_of_ended (length : 0 < s.length) (open_end : line.offset < s.stop)
    (ended : s.stop ≤ line.stop) :
    classify line s = .contained ∨ classify line s = .ends := by
  have stop_eq := s.stop_eq
  rw [classify_eq (by omega) length, if_neg (by omega), if_pos ended,
    if_neg (Int.not_lt.mpr ended)]
  split
  · exact .inl rfl
  · exact .inr rfl

end Relation

namespace Line

variable {line : Line Int} {s : Span Int}

/-- A span with bytes to spare on a line keeps clear of the beginning of the next one. -/
theorem Spares.clear (spares : line.Spares s) (length : 0 ≤ s.length)
    (filled : line.offset < line.stop) (clear : Clear s line.offset) : Clear s line.stop := by
  constructor
  · by_cases passed : line.stop ≤ s.offset
    · exact .inl passed
    · rcases clear.begins with begun | away
      · exact .inr (spares.begins (Relation.classify_of_begun length begun (by omega)))
      · exact .inr (by omega)
  · intro bytes
    by_cases more : line.stop < s.stop
    · exact .inl more
    · rcases clear.ends bytes with open_end | away
      · exact .inr (spares.ends (Relation.classify_of_ended bytes open_end (by omega)))
      · exact .inr (by omega)

/-- Along a chain of lines a span keeps all of its relations just if each line spares it. -/
theorem Chain.forall_classify_goingOn_iff {number : Nat} {offset : Int} {lines : List (Line Int)}
    (chain : Chain number offset lines) (length : 0 ≤ s.length) (clear : Clear s offset) :
    (∀ line ∈ lines,
      Relation.classify line.goingOn (s.moved motion) = Relation.classify line s) ↔
      ∀ line ∈ lines, line.Spares s := by
  induction chain with
  | nil => simp
  | @cons number offset line rest number_eq offset_eq formed behind ih =>
    rw [← offset_eq] at clear
    have filled := formed.filled
    have first := Relation.classify_goingOn_iff filled length clear
    rw [List.forall_mem_cons, List.forall_mem_cons, first]
    exact and_congr_right fun spares => ih (spares.clear length filled clear)

end Line

end Marginalia
