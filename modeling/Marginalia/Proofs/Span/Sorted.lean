import Marginalia.Span.Sorted

/-!
# Labels in order

Integers can always be compared, so labels at integers are put in order by one stable sort.  What is
stably sorted stays so when labels are left out on both sides.  There is one such order of a list,
and the labels on any one span tell it, so the order of a list with some labels left out is the
order of the list without them.
-/

namespace Marginalia

theorem Span.precedes_iff (a b : Span Int) :
    a.precedes b = true ↔ a.offset < b.offset ∨ a.offset = b.offset ∧ b.length ≤ a.length := by
  unfold precedes order
  split
  · rename_i before
    exact iff_of_true rfl (.inl before)
  · split
    · exact iff_of_false Bool.false_ne_true (by omega)
    · split
      · exact iff_of_true rfl (by omega)
      · split
        · exact iff_of_false Bool.false_ne_true (by omega)
        · exact iff_of_true rfl (by omega)

theorem Span.precedes_antisymm {a b : Span Int} (hab : a.precedes b = true)
    (hba : b.precedes a = true) : a = b := by
  rw [precedes_iff] at hab hba
  cases a
  cases b
  rw [Span.mk.injEq]
  dsimp only at *
  omega

namespace Label

/-- Labels in the order of their spans, those on equal spans as they stand in another list with the
same labels. -/
structure StablySorted (sorted labels : List (Label Int)) : Prop where
  perm : sorted.Perm labels
  ordered : sorted.Pairwise fun a b => a.precedes b = true
  stable : ∀ s : Span Int, sorted.filter (·.span = s) = labels.filter (·.span = s)

theorem precedes_trans (a b c : Label Int) (hab : a.precedes b = true) (hbc : b.precedes c = true) :
    a.precedes c = true := by
  unfold precedes at *
  rw [Span.precedes_iff] at *
  omega

theorem precedes_total (a b : Label Int) : (a.precedes b || b.precedes a) = true := by
  unfold precedes
  rw [Bool.or_eq_true, Span.precedes_iff, Span.precedes_iff]
  omega

theorem precedes_of_span_eq {a b : Label Int} (same : a.span = b.span) : a.precedes b = true := by
  unfold precedes
  rw [Span.precedes_iff, same]
  omega

theorem sort_eq_mergeSort (labels : List (Label Int)) :
    sort labels = labels.mergeSort precedes := by
  have comparable : labels.all isComparable = true := by
    simp [isComparable, Coordinate.Same]
  rw [sort, if_pos comparable]

theorem sort_singleton (label : Label Int) : sort [label] = [label] := by
  rw [sort_eq_mergeSort, List.mergeSort_singleton]

theorem sort_stablySorted (labels : List (Label Int)) : StablySorted (sort labels) labels := by
  rw [sort_eq_mergeSort]
  have perm := List.mergeSort_perm labels precedes
  refine ⟨perm, List.pairwise_mergeSort precedes_trans precedes_total labels, fun s => ?_⟩
  have equal : (labels.filter (·.span = s)).Pairwise fun a b => a.precedes b = true := by
    refine List.pairwise_of_forall_mem_list fun a ha b hb => precedes_of_span_eq ?_
    simp only [List.mem_filter, decide_eq_true_eq] at ha hb
    rw [ha.2, hb.2]
  have kept := (List.sublist_mergeSort precedes_trans precedes_total equal
    List.filter_sublist).filter (·.span = s)
  rw [List.filter_filter] at kept
  simp only [Bool.and_self] at kept
  exact (kept.eq_of_length (perm.filter _).length_eq.symm).symm

theorem StablySorted.filter {sorted labels : List (Label Int)} (h : StablySorted sorted labels)
    (p : Label Int → Bool) : StablySorted (sorted.filter p) (labels.filter p) := by
  have swap (l : List (Label Int)) (s : Span Int) :
      (l.filter p).filter (·.span = s) = (l.filter (·.span = s)).filter p := by
    simp only [List.filter_filter, Bool.and_comm]
  refine ⟨h.perm.filter p, h.ordered.filter p, fun s => ?_⟩
  rw [swap, h.stable s, swap]

/-! ## There is one order -/

private theorem mem_iff_of_filter_eq {labels others : List (Label Int)}
    (same : ∀ s : Span Int, labels.filter (·.span = s) = others.filter (·.span = s))
    (l : Label Int) : l ∈ labels ↔ l ∈ others := by
  have member := congrArg (l ∈ ·) (same l.span)
  simpa using member

/-- Labels in order are told by the labels on each span. -/
theorem eq_of_ordered {labels others : List (Label Int)}
    (ordered : labels.Pairwise fun a b => a.precedes b = true)
    (ordered' : others.Pairwise fun a b => a.precedes b = true)
    (same : ∀ s : Span Int, labels.filter (·.span = s) = others.filter (·.span = s)) :
    labels = others := by
  induction labels generalizing others with
  | nil =>
    have absent (l : Label Int) : l ∉ others :=
      mt (mem_iff_of_filter_eq same l).mpr List.not_mem_nil
    exact (List.eq_nil_iff_forall_not_mem.mpr absent).symm
  | cons a rest ih =>
    have mem_iff := mem_iff_of_filter_eq same
    cases others with
    | nil => exact absurd ((mem_iff a).mp List.mem_cons_self) (by simp)
    | cons b others =>
      obtain ⟨a_first, rest_ordered⟩ := List.pairwise_cons.mp ordered
      obtain ⟨b_first, others_ordered⟩ := List.pairwise_cons.mp ordered'
      -- both heads are least, so they are on one span, and of its labels each comes first
      have a_le : a.span.precedes b.span = true := by
        rcases List.mem_cons.mp ((mem_iff b).mpr List.mem_cons_self) with rfl | member
        · exact precedes_of_span_eq rfl
        · exact a_first b member
      have b_le : b.span.precedes a.span = true := by
        rcases List.mem_cons.mp ((mem_iff a).mp List.mem_cons_self) with rfl | member
        · exact precedes_of_span_eq rfl
        · exact b_first a member
      have span_eq := Span.precedes_antisymm a_le b_le
      have head_eq : a = b := by
        have heads := same a.span
        rw [List.filter_cons_of_pos (by simp), List.filter_cons_of_pos (by simp [span_eq])] at heads
        exact (List.cons.inj heads).1
      subst head_eq
      have tails (s : Span Int) : rest.filter (·.span = s) = others.filter (·.span = s) := by
        have whole := same s
        rw [List.filter_cons, List.filter_cons] at whole
        split at whole
        · exact (List.cons.inj whole).2
        · exact whole
      rw [ih rest_ordered others_ordered tails]

/-- Leaving labels out in front of the sort is leaving them out behind it. -/
theorem filter_sort (labels : List (Label Int)) (p : Label Int → Bool) :
    (sort labels).filter p = sort (labels.filter p) := by
  have behind := (sort_stablySorted labels).filter p
  have front := sort_stablySorted (labels.filter p)
  exact eq_of_ordered behind.ordered front.ordered fun s => by rw [behind.stable, front.stable]

end Label

end Marginalia
