import Marginalia.Proofs.Span.Basic
import Marginalia.Proofs.Span.Sorted

/-!
# Spans moved

Something put into a source moves the places behind it.  A motion keeps the places in order, and so
it keeps all that is told of spans by comparing their ends: points, the order of labels, unions, and
which labels a span covers.
-/

namespace Marginalia

/-- A way of moving places that keeps them in order. -/
structure Motion where
  place : Int → Int
  ordered : ∀ x y : Int, x < y → place x < place y

variable (f : Motion)

namespace Motion

variable {x y : Int}

theorem place_lt_iff : f.place x < f.place y ↔ x < y := by
  refine ⟨fun moved => ?_, f.ordered x y⟩
  rcases Int.lt_trichotomy x y with lt | rfl | gt
  · exact lt
  · omega
  · have := f.ordered y x gt
    omega

theorem place_le_iff : f.place x ≤ f.place y ↔ x ≤ y := by
  rw [← Int.not_lt, f.place_lt_iff, Int.not_lt]

theorem place_eq_iff : f.place x = f.place y ↔ x = y := by
  have le := f.place_le_iff (x := x) (y := y)
  have ge := f.place_le_iff (x := y) (y := x)
  omega

theorem same_place_iff : Coordinate.Same (f.place x) (f.place y) ↔ Coordinate.Same x y := by
  rw [Coordinate.Same, Coordinate.Same, f.place_le_iff, f.place_le_iff]

theorem place_min (x y : Int) : f.place (min x y) = min (f.place x) (f.place y) := by
  have := f.place_le_iff (x := x) (y := y)
  rw [Int.min_def, Int.min_def]
  split <;> split <;> first | rfl | omega

theorem place_max (x y : Int) : f.place (max x y) = max (f.place x) (f.place y) := by
  have := f.place_le_iff (x := x) (y := y)
  rw [Int.max_def, Int.max_def]
  split <;> split <;> first | rfl | omega

end Motion

/-! ## Spans -/

namespace Span

/-- A span with both of its ends moved. -/
def moved (s : Span Int) : Span Int := ⟨f.place s.offset, f.place s.stop - f.place s.offset⟩

@[simp] theorem offset_moved (s : Span Int) : (s.moved f).offset = f.place s.offset := rfl

@[simp] theorem stop_moved (s : Span Int) : (s.moved f).stop = f.place s.stop := by
  rw [stop_eq]
  simp only [moved]
  omega

theorem length_moved (s : Span Int) :
    (s.moved f).length = f.place s.stop - f.place s.offset := rfl

theorem moved_between (x y : Int) :
    (⟨x, y - x⟩ : Span Int).moved f = ⟨f.place x, f.place y - f.place x⟩ := by
  have stop : (⟨x, y - x⟩ : Span Int).stop = y := by
    rw [stop_eq]
    dsimp only
    omega
  rw [moved, stop]

theorem moved_point (x : Int) :
    (⟨x, ((0 : Nat) : Int)⟩ : Span Int).moved f = ⟨f.place x, ((0 : Nat) : Int)⟩ := by
  simp [moved, stop_eq]

theorem length_moved_pos_iff (s : Span Int) : 0 < (s.moved f).length ↔ 0 < s.length := by
  have lt := f.place_lt_iff (x := s.offset) (y := s.stop)
  have := s.stop_eq
  rw [length_moved]
  omega

@[simp] theorem isPoint_moved (s : Span Int) : (s.moved f).isPoint = s.isPoint := by
  have eq := f.place_eq_iff (x := s.offset) (y := s.stop)
  have := s.stop_eq
  rw [Bool.eq_iff_iff, isPoint_iff, isPoint_iff, length_moved]
  omega

theorem precedes_moved (s t : Span Int) : (s.moved f).precedes (t.moved f) = s.precedes t := by
  have lt := f.place_lt_iff (x := s.offset) (y := t.offset)
  have eq := f.place_eq_iff (x := s.offset) (y := t.offset)
  have le := f.place_le_iff (x := t.stop) (y := s.stop)
  have := s.stop_eq
  have := t.stop_eq
  rw [Bool.eq_iff_iff, precedes_iff, precedes_iff, offset_moved, offset_moved, length_moved,
    length_moved]
  omega

/-- The union of moved spans is the moved union, as long as that is valid. -/
theorem union_moved {s t u : Span Int} (union : s.union t = .ok u) (valid : (u.moved f).Valid) :
    (s.moved f).union (t.moved f) = .ok (u.moved f) := by
  obtain ⟨-, offset_eq, stop_eq⟩ := of_union_eq_ok union
  have moved_eq : (⟨min (s.moved f).offset (t.moved f).offset,
      max (s.moved f).stop (t.moved f).stop - min (s.moved f).offset (t.moved f).offset⟩ :
      Span Int) = u.moved f := by
    rw [offset_moved, offset_moved, stop_moved, stop_moved, ← f.place_min, ← f.place_max,
      ← offset_eq, ← stop_eq]
    rfl
  unfold Span.union create
  dsimp only
  rw [moved_eq, checked, if_pos valid]

end Span

/-! ## Labels -/

namespace Label

/-- A label on the moved span. -/
def moved (l : Label Int) : Label Int := { l with span := l.span.moved f }

@[simp] theorem span_moved (l : Label Int) : (l.moved f).span = l.span.moved f := rfl

theorem sort_map_moved (labels : List (Label Int)) :
    sort (labels.map (moved f)) = (sort labels).map (moved f) := by
  rw [sort_eq_mergeSort, sort_eq_mergeSort]
  refine (List.map_mergeSort fun a _ b _ => ?_).symm
  exact (Span.precedes_moved f a.span b.span).symm

end Label

theorem Span.Covers.moved {s : Span Int} {labels : List (Label Int)} (covers : s.Covers labels) :
    (s.moved f).Covers (labels.map (Label.moved f)) := by
  obtain ⟨offset_le, ⟨a, a_member, offset_eq⟩, le_stop, ⟨b, b_member, stop_eq⟩⟩ := covers
  refine ⟨?_, ⟨a.moved f, List.mem_map_of_mem a_member, ?_⟩, ?_,
    ⟨b.moved f, List.mem_map_of_mem b_member, ?_⟩⟩
  · intro l member
    obtain ⟨k, k_member, rfl⟩ := List.mem_map.mp member
    exact f.place_le_iff.mpr (offset_le k k_member)
  · rw [Label.span_moved, offset_moved, offset_moved, offset_eq]
  · intro l member
    obtain ⟨k, k_member, rfl⟩ := List.mem_map.mp member
    rw [Label.span_moved, stop_moved, stop_moved]
    exact f.place_le_iff.mpr (le_stop k k_member)
  · rw [Label.span_moved, stop_moved, stop_moved, stop_eq]

/-- A span is valid if the labels that it covers are. -/
theorem Span.Covers.valid {s : Span Int} {labels : List (Label Int)} (covers : s.Covers labels)
    (valid : ∀ l ∈ labels, l.span.Valid) : s.Valid := by
  obtain ⟨-, ⟨a, a_member, offset_eq⟩, le_stop, ⟨b, b_member, stop_eq⟩⟩ := covers
  have a_valid := (valid_iff _).mp (valid a a_member)
  have b_valid := (valid_iff _).mp (valid b b_member)
  have a_le := le_stop a a_member
  have := a.span.stop_eq
  have := s.stop_eq
  rw [valid_iff]
  omega

end Marginalia
