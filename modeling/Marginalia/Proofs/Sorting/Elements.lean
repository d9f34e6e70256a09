import Marginalia.Sorting.Pending

/-!
# Sorting adds nothing

Whatever the comparison says, runs are cut from a list, merged and leapt over without an element
coming in that was not in the list.
-/

namespace Marginalia.Sorting

variable {α : Type} {before : α → α → Bool} {xs ys : List α}

/-! ## Runs -/

theorem insertHalving_subset {row : List α} {x : α} (row_within : row ⊆ xs) (x_within : x ∈ xs) :
    insertHalving before row x ⊆ xs := by
  unfold insertHalving
  dsimp only
  rw [List.append_subset, List.cons_subset]
  exact ⟨List.Subset.trans (List.take_subset _ _) row_within, x_within,
    List.Subset.trans (List.drop_subset _ _) row_within⟩

theorem rising_append (last : α) (ys : List α) :
    (rising before last ys).1 ++ (rising before last ys).2 = ys := by
  induction ys generalizing last with
  | nil => rfl
  | cons x rest ih =>
    rw [rising]
    split
    · rfl
    · exact congrArg (x :: ·) (ih x)

theorem falling_append (last : α) (ys : List α) :
    (falling before last ys).1 ++ (falling before last ys).2 = ys := by
  induction ys generalizing last with
  | nil => rfl
  | cons x rest ih =>
    rw [falling]
    split
    · exact congrArg (x :: ·) (ih x)
    · rfl

theorem firstRun_subset (within : ys ⊆ xs) :
    (firstRun before ys).1 ⊆ xs ∧ (firstRun before ys).2 ⊆ xs := by
  unfold firstRun
  split
  · rename_i first second rest
    rw [List.cons_subset, List.cons_subset] at within
    obtain ⟨first_within, second_within, rest_within⟩ := within
    split
    · have parts : (falling before second rest).1 ++ (falling before second rest).2 = rest :=
        falling_append second rest
      rw [← parts, List.append_subset] at rest_within
      exact ⟨by simp [first_within, second_within, rest_within], rest_within.2⟩
    · have parts : (rising before second rest).1 ++ (rising before second rest).2 = rest :=
        rising_append second rest
      rw [← parts, List.append_subset] at rest_within
      exact ⟨by simp [first_within, second_within, rest_within], rest_within.2⟩
  · exact ⟨within, List.nil_subset _⟩

theorem longRun_subset (least : Nat) (within : ys ⊆ xs) :
    (longRun before least ys).1 ⊆ xs ∧ (longRun before least ys).2 ⊆ xs := by
  obtain ⟨run_within, rest_within⟩ : (firstRun before ys).1 ⊆ xs ∧ (firstRun before ys).2 ⊆ xs :=
    firstRun_subset within
  unfold longRun
  dsimp only
  refine ⟨?_, List.Subset.trans (List.drop_subset _ _) rest_within⟩
  have taken := List.Subset.trans (List.take_subset (least - (firstRun before ys).1.length) _)
    rest_within
  generalize (firstRun before ys).2.take _ = more at taken
  generalize (firstRun before ys).1 = run at run_within
  induction more generalizing run with
  | nil => exact run_within
  | cons x more ih =>
    rw [List.cons_subset] at taken
    exact ih taken.2 _ (insertHalving_subset run_within taken.1)

/-! ## Merging -/

namespace Merging

/-- Everything that is being merged comes from a list. -/
structure Within (xs : List α) (m : Merging α) : Prop where
  placed : m.placed ⊆ xs
  held : m.held ⊆ xs
  other : m.other ⊆ xs

variable {m : Merging α} {first : α → α → Bool}

namespace Within

theorem merged (within : m.Within xs) : m.merged ⊆ xs := by
  unfold Merging.merged
  rw [List.append_subset, List.append_subset, List.reverse_subset]
  exact ⟨within.placed, within.other, within.held⟩

theorem takeOther (within : m.Within xs) : m.takeOther.Within xs := by
  unfold Merging.takeOther
  split
  · rename_i x rest _ other_eq
    have other := within.other
    rw [other_eq, List.cons_subset] at other
    exact ⟨List.cons_subset.mpr ⟨other.1, within.placed⟩, within.held, other.2⟩
  · exact within

theorem takeHeld (within : m.Within xs) : m.takeHeld.Within xs := by
  unfold Merging.takeHeld
  split
  · rename_i x rest _ held_eq
    have held := within.held
    rw [held_eq, List.cons_subset] at held
    exact ⟨List.cons_subset.mpr ⟨held.1, within.placed⟩, held.2, within.other⟩
  · exact within

/-- Part of a run is placed. -/
theorem place (placed_within : m.placed ⊆ xs) {run : List α} (run_within : run ⊆ xs) (count : Nat) :
    (run.take count).reverse ++ m.placed ⊆ xs ∧ run.drop count ⊆ xs := by
  rw [List.append_subset, List.reverse_subset]
  exact ⟨⟨List.Subset.trans (List.take_subset _ _) run_within, placed_within⟩,
    List.Subset.trans (List.drop_subset _ _) run_within⟩

theorem leapHeld (within : m.Within xs) (fromBack : Bool) :
    (m.leapHeld first fromBack).2.Within xs := by
  unfold Merging.leapHeld
  split
  · obtain ⟨placed, held⟩ := place within.placed within.held _
    exact ⟨placed, held, within.other⟩
  · exact within

theorem leapOther (within : m.Within xs) (fromBack : Bool) :
    (m.leapOther first fromBack).2.Within xs := by
  unfold Merging.leapOther
  split
  · obtain ⟨placed, other⟩ := place within.placed within.other _
    exact ⟨placed, within.held, other⟩
  · exact within

theorem alternate {placed held other : List α} (placed_within : placed ⊆ xs)
    (held_within : held ⊆ xs) (other_within : other ⊆ xs) (patience heldWins otherWins : Nat) :
    (alternate first patience heldWins otherWins placed held other).Within xs := by
  fun_induction Merging.alternate first patience heldWins otherWins placed held other with
  | case1 => exact ⟨placed_within, held_within, other_within⟩
  | case2 _ _ _ _ _ _ _ _ _ ih =>
    rw [List.cons_subset] at other_within
    exact ih (List.cons_subset.mpr ⟨other_within.1, placed_within⟩) held_within other_within.2
  | case3 _ _ _ _ _ _ _ _ _ ih =>
    rw [List.cons_subset] at held_within
    exact ih (List.cons_subset.mpr ⟨held_within.1, placed_within⟩) held_within.2 other_within
  | case4 => exact ⟨placed_within, held_within, other_within⟩

theorem bothLeap (within : m.Within xs) (fromBack : Bool) :
    (m.bothLeap first fromBack).2.Within xs := by
  unfold Merging.bothLeap
  split
  · exact (((within.leapOther fromBack).takeHeld).leapHeld fromBack).takeOther
  · exact (((within.leapHeld fromBack).takeOther).leapOther fromBack).takeHeld

theorem leapOn (within : m.Within xs) (fromBack : Bool) (fuel patience : Nat) :
    (m.leapOn first fromBack fuel patience).2.Within xs := by
  induction fuel generalizing m patience with
  | zero => exact within
  | succ fuel ih =>
    have leapt : (m.bothLeap first fromBack).2.Within xs := within.bothLeap fromBack
    rw [Merging.leapOn]
    dsimp only
    split
    · exact leapt
    · split
      · exact ih leapt _
      · exact leapt

theorem finish (within : m.Within xs) (fromBack : Bool) (fuel patience : Nat) :
    (m.finish first fromBack fuel patience).2 ⊆ xs := by
  induction fuel generalizing m patience with
  | zero => exact within.merged
  | succ fuel ih =>
    have alternated : (Merging.alternate first patience 0 0 m.placed m.held m.other).Within xs :=
      alternate within.placed within.held within.other patience 0 0
    rw [Merging.finish]
    dsimp only
    split
    · exact alternated.merged
    · exact ih (alternated.leapOn fromBack _ _) _

end Within

end Merging

theorem mergeForward_subset {a b : List α} (patience : Nat) (front : a ⊆ xs) (back : b ⊆ xs) :
    (mergeForward before patience a b).2 ⊆ xs := by
  have begun : Merging.Within xs ⟨[], a, b⟩ := ⟨List.nil_subset _, front, back⟩
  exact begun.takeOther.finish false _ _

theorem mergeBackward_subset {a b : List α} (patience : Nat) (front : a ⊆ xs) (back : b ⊆ xs) :
    (mergeBackward before patience a b).2 ⊆ xs := by
  have begun : Merging.Within xs ⟨[], b.reverse, a.reverse⟩ :=
    ⟨List.nil_subset _, List.reverse_subset.mpr back, List.reverse_subset.mpr front⟩
  exact List.reverse_subset.mpr (begun.takeOther.finish true _ _)

theorem mergeRuns_subset {a b : List α} (patience : Nat) (front : a ⊆ xs) (back : b ⊆ xs) :
    (mergeRuns before patience a b).2 ⊆ xs := by
  have taken {run : List α} (within : run ⊆ xs) (count : Nat) : run.take count ⊆ xs :=
    List.Subset.trans (List.take_subset _ _) within
  have dropped {run : List α} (within : run ⊆ xs) (count : Nat) : run.drop count ⊆ xs :=
    List.Subset.trans (List.drop_subset _ _) within
  unfold mergeRuns
  split
  · dsimp only
    split
    · simp only [List.append_subset]
      exact ⟨⟨taken front _, dropped front _⟩, dropped back _⟩
    · simp only [List.append_subset]
      refine ⟨⟨taken front _, ?_⟩, dropped back _⟩
      split
      · exact mergeForward_subset _ (dropped front _) (taken back _)
      · exact mergeBackward_subset _ (dropped front _) (taken back _)
  · exact List.append_subset.mpr ⟨front, back⟩

/-! ## Waiting runs -/

namespace Pending

variable {p : Pending α}

theorem mergeLatest_subset (within : ∀ run ∈ p.runs, run ⊆ xs) :
    ∀ run ∈ (p.mergeLatest before).runs, run ⊆ xs := by
  unfold mergeLatest
  split
  · rename_i last second third rest runs_eq
    simp only [runs_eq, List.forall_mem_cons] at within
    obtain ⟨last_within, second_within, third_within, rest_within⟩ := within
    split
    · exact List.forall_mem_cons.mpr ⟨last_within, List.forall_mem_cons.mpr
        ⟨mergeRuns_subset _ third_within second_within, rest_within⟩⟩
    · exact List.forall_mem_cons.mpr ⟨mergeRuns_subset _ second_within last_within,
        List.forall_mem_cons.mpr ⟨third_within, rest_within⟩⟩
  · rename_i last second runs_eq
    simp only [runs_eq, List.forall_mem_cons] at within
    exact List.forall_mem_cons.mpr ⟨mergeRuns_subset _ within.2.1 within.1, by simp⟩
  · exact within

theorem mergeUntil_subset (within : ∀ run ∈ p.runs, run ⊆ xs) (isDone : Pending α → Bool)
    (fuel : Nat) : ∀ run ∈ (p.mergeUntil before isDone fuel).runs, run ⊆ xs := by
  induction fuel generalizing p with
  | zero => exact within
  | succ fuel ih =>
    rw [mergeUntil]
    split
    · exact within
    · exact ih (mergeLatest_subset within)

theorem pushAll_subset (within : ∀ run ∈ p.runs, run ⊆ xs) {ys : List α} (rest_within : ys ⊆ xs)
    (least fuel : Nat) : ∀ run ∈ (pushAll before least fuel p ys).runs, run ⊆ xs := by
  induction fuel generalizing p ys with
  | zero => exact within
  | succ fuel ih =>
    cases ys with
    | nil => exact within
    | cons y ys =>
      obtain ⟨run_within, others_within⟩ :
          (longRun before least (y :: ys)).1 ⊆ xs ∧ (longRun before least (y :: ys)).2 ⊆ xs :=
        longRun_subset least rest_within
      refine ih (mergeUntil_subset ?_ isBalanced _) others_within
      exact List.forall_mem_cons.mpr ⟨run_within, within⟩

theorem flatten_subset (within : ∀ run ∈ p.runs, run ⊆ xs) : p.flatten before ⊆ xs := by
  have merged : ∀ run ∈ (p.mergeUntil before isSingle p.runs.length).runs, run ⊆ xs :=
    mergeUntil_subset within isSingle p.runs.length
  unfold flatten
  cases runs_eq : (p.mergeUntil before isSingle p.runs.length).runs with
  | nil => exact List.nil_subset _
  | cons run rest => exact merged run (runs_eq ▸ List.mem_cons_self)

end Pending

/-- Sorting adds nothing. -/
theorem sortRuns_subset (xs : List α) : sortRuns before xs ⊆ xs :=
  Pending.flatten_subset (Pending.pushAll_subset (by simp) (List.Subset.refl _) _ _)

end Marginalia.Sorting
