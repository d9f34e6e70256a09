import Mathlib.Data.List.Rotate
import Marginalia.Diagnostic.Cause

/-!
# Unrolled chains

What is thrown unrolls to a chain that need not end: errors in a circle come again and again.  The
chain that is made of it is the beginning of that one, and the whole of it if it ends in time.
-/

namespace Marginalia.Thrown

/-- The link at a place of the unrolled chain.  Every error is a link, and its cause goes on behind
it; data that is no error is the last link, if it is a link at all, and a circle begins anew behind
its last error. -/
def unrolled : Thrown → Nat → Option Link
  | nothing, _ => none
  | value data, 0 => Link.ofValue? data
  | value _, _ + 1 => none
  | error name message _, 0 => some ⟨name, message⟩
  | error _ _ cause, i + 1 => unrolled cause i
  | cyclic name message others, i => (⟨name, message⟩ :: others)[i % (others.length + 1)]?

variable {thrown rest : Thrown} {link : Link}

theorem unrolled_of_ended (ended : thrown.next? = none) (i : Nat) : thrown.unrolled i = none := by
  cases thrown with
  | nothing => rfl
  | value data =>
    cases i with
    | zero => exact Option.map_eq_none_iff.mp ended
    | succ i => rfl
  | error name message cause => cases ended
  | cyclic name message others => cases others <;> cases ended

theorem unrolled_zero (next : thrown.next? = some (link, rest)) : thrown.unrolled 0 = some link := by
  cases thrown with
  | nothing => cases next
  | value data =>
    obtain ⟨_, found, eq⟩ := Option.map_eq_some_iff.mp next
    cases eq
    exact found
  | error name message cause =>
    cases next
    rfl
  | cyclic name message others =>
    cases others <;>
      · cases next
        simp [unrolled]

/-- A circle goes on with the circle that begins with its second error. -/
theorem unrolled_cyclic_succ (first second : Link) (others : List Link) (i : Nat) :
    unrolled (cyclic first.kind first.message (second :: others)) (i + 1) =
      unrolled (cyclic second.kind second.message (others ++ [first])) i := by
  let circle := first :: second :: others
  have turned : second :: (others ++ [first]) = circle.rotate 1 := by
    rw [List.rotate_cons_succ, List.rotate_zero, List.cons_append]
  have place_lt : i % circle.length < circle.length := Nat.mod_lt _ (Nat.succ_pos _)
  have length_eq : (others ++ [first]).length + 1 = circle.length := by simp [circle]
  calc unrolled (cyclic first.kind first.message (second :: others)) (i + 1)
    _ = circle[(i + 1) % circle.length]? := rfl
    _ = (circle.rotate 1)[i % circle.length]? := by
      rw [List.getElem?_rotate place_lt, Nat.mod_add_mod]
    _ = _ := by rw [unrolled, length_eq, ← turned]

theorem unrolled_succ (next : thrown.next? = some (link, rest)) (i : Nat) :
    thrown.unrolled (i + 1) = rest.unrolled i := by
  cases thrown with
  | nothing => cases next
  | value data =>
    obtain ⟨_, -, eq⟩ := Option.map_eq_some_iff.mp next
    cases eq
    rfl
  | error name message cause =>
    cases next
    rfl
  | cyclic name message others =>
    cases others with
    | nil =>
      cases next
      simp [unrolled, Nat.mod_one]
    | cons second others =>
      cases next
      exact unrolled_cyclic_succ ⟨name, message⟩ second others i

/-- As many links as are asked for are the first ones of the unrolled chain. -/
theorem getElem?_links (count : Nat) (thrown : Thrown) (i : Nat) :
    (thrown.links count)[i]? = if i < count then thrown.unrolled i else none := by
  induction count generalizing thrown i with
  | zero => simp [links]
  | succ count ih =>
    rw [links]
    cases next : thrown.next? with
    | none => simp [unrolled_of_ended next]
    | some found =>
      obtain ⟨link, rest⟩ := found
      cases i with
      | zero => simp [unrolled_zero next]
      | succ i => simp [unrolled_succ next, ih]

/-- A chain that ends in time is made as a whole. -/
theorem links_eq_of_unrolled {count : Nat} {chain : List Link} (ends : chain.length ≤ count)
    (unrolls : ∀ i, thrown.unrolled i = chain[i]?) : thrown.links count = chain := by
  refine List.ext_getElem? fun i => ?_
  rw [getElem?_links, unrolls]
  split
  · rfl
  · exact (List.getElem?_eq_none (by omega)).symm

end Marginalia.Thrown
