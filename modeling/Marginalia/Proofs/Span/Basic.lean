import Marginalia.Span.Label

/-!
# Spans at integers

A span is valid if its parts are not negative and its end is no greater than the greatest safe
integer, so the union of two valid spans is valid.  `Covers` says what a union of the spans of many
labels is.
-/

namespace Marginalia.Span

theorem stop_eq (s : Span Int) : s.stop = s.offset + s.length := rfl

theorem valid_iff (s : Span Int) :
    s.Valid ↔ 0 ≤ s.offset ∧ 0 ≤ s.length ∧ s.stop ≤ Number.maxSafe := by
  have := stop_eq s
  simp only [Valid, Coordinate.isCount, isByteCount, decide_eq_true_eq]
  omega

theorem isPoint_iff (s : Span Int) : s.isPoint = true ↔ s.length = 0 := by
  rw [isPoint, decide_eq_true_iff, Coordinate.Same]
  omega

theorem isPoint_of_length_pos {s : Span Int} (length : 0 < s.length) : s.isPoint = false := by
  rw [← Bool.not_eq_true, isPoint_iff]
  omega

/-- A span of byte counts that ends within a source. -/
structure Inside (bytes : List UInt8) (s : Span Int) : Prop where
  offset : 0 ≤ s.offset
  length : 0 ≤ s.length
  stop : s.stop ≤ bytes.length

theorem Valid.inside {bytes : List UInt8} {s : Span Int} (valid : s.Valid)
    (stop : s.stop ≤ bytes.length) : s.Inside bytes :=
  ⟨((valid_iff s).mp valid).1, ((valid_iff s).mp valid).2.1, stop⟩

/-- A span is what lies between its ends. -/
theorem between_ends (s : Span Int) : (⟨s.offset, s.stop - s.offset⟩ : Span Int) = s := by
  have length_eq : s.stop - s.offset = s.length := by
    rw [stop_eq]
    omega
  rw [length_eq]

/-- A span that begins earlier and ends where it did stays within the source. -/
theorem Inside.moved_back {bytes : List UInt8} {s : Span Int} (inside : s.Inside bytes)
    {start : Nat} (le : (start : Int) ≤ s.offset) :
    (⟨start, s.stop - start⟩ : Span Int).Inside bytes := by
  have length := inside.length
  have stop := inside.stop
  have stop_eq := stop_eq s
  refine ⟨Int.natCast_nonneg _, ?_, ?_⟩
  · dsimp only
    omega
  · rw [Span.stop_eq]
    dsimp only
    omega

/-! ## Unions -/

/-- What is known of a union that was found. -/
theorem of_union_eq_ok {a b u : Span Int} (union : a.union b = .ok u) :
    u.Valid ∧ u.offset = min a.offset b.offset ∧ u.stop = max a.stop b.stop := by
  unfold Span.union create checked at union
  dsimp only at union
  split at union
  · rename_i valid
    cases union
    refine ⟨valid, rfl, ?_⟩
    simp only [stop]
    omega
  · cases union

theorem exists_union {a b : Span Int} (valid : a.Valid) (valid' : b.Valid) :
    ∃ u, a.union b = .ok u := by
  refine ⟨_, if_pos ?_⟩
  rw [valid_iff] at *
  have := stop_eq a
  have := stop_eq b
  simp only [stop]
  omega

/-- A span from the least beginning of the spans of labels to their greatest end. -/
structure Covers (s : Span Int) (labels : List (Label Int)) : Prop where
  offset_le : ∀ l ∈ labels, s.offset ≤ l.span.offset
  offset_mem : ∃ l ∈ labels, l.span.offset = s.offset
  le_stop : ∀ l ∈ labels, l.span.stop ≤ s.stop
  stop_mem : ∃ l ∈ labels, l.span.stop = s.stop

theorem covers_singleton (l : Label Int) : l.span.Covers [l] := by
  constructor <;> simp

theorem Covers.union {s u : Span Int} {labels : List (Label Int)} {l : Label Int}
    (covers : s.Covers labels) (union : s.union l.span = .ok u) : u.Covers (labels ++ [l]) := by
  obtain ⟨-, offset_eq, stop_eq⟩ := of_union_eq_ok union
  constructor
  · intro k member
    rcases List.mem_append.mp member with member | member
    · have := covers.offset_le k member
      omega
    · cases List.mem_singleton.mp member
      omega
  · by_cases first : s.offset ≤ l.span.offset
    · obtain ⟨k, member, eq⟩ := covers.offset_mem
      exact ⟨k, List.mem_append_left _ member, by omega⟩
    · exact ⟨l, by simp, by omega⟩
  · intro k member
    rcases List.mem_append.mp member with member | member
    · have := covers.le_stop k member
      omega
    · cases List.mem_singleton.mp member
      omega
  · by_cases last : l.span.stop ≤ s.stop
    · obtain ⟨k, member, eq⟩ := covers.stop_mem
      exact ⟨k, List.mem_append_left _ member, by omega⟩
    · exact ⟨l, by simp, by omega⟩

end Marginalia.Span
