import Marginalia.Text.Split

/-!
# Pieces of a text

Splitting leaves at least one piece, and no piece holds the separator.  Joining puts back what
splitting took away, and splitting finds the pieces again that were joined.
-/

namespace Marginalia.Text

variable {separator c : Char} {cs piece : List Char} {pieces : List (List Char)}

theorem split_ne_nil (separator : Char) (cs : List Char) : split separator cs ≠ [] := by
  cases cs with
  | nil => simp [split]
  | cons c rest =>
    rw [split]
    repeat' split
    all_goals simp

theorem split_cons_self (rest : List Char) :
    split separator (separator :: rest) = [] :: split separator rest := by
  rw [split, if_pos rfl]

/-- A character that is no separator goes on the first piece. -/
theorem split_cons_of_ne (other : c ≠ separator) {rest : List Char}
    (pieces_eq : split separator rest = piece :: pieces) :
    split separator (c :: rest) = (c :: piece) :: pieces := by
  rw [split, if_neg other, pieces_eq]

theorem mem_of_mem_split (member : piece ∈ split separator cs) (inside : c ∈ piece) : c ∈ cs := by
  induction cs generalizing piece with
  | nil =>
    cases List.mem_singleton.mp member
    exact inside
  | cons d rest ih =>
    by_cases cut : d = separator
    · rw [cut, split_cons_self] at member
      rcases List.mem_cons.mp member with rfl | member
      · exact absurd inside List.not_mem_nil
      · exact .tail _ (ih member inside)
    · obtain ⟨first, others, eq⟩ := List.exists_cons_of_ne_nil (split_ne_nil separator rest)
      rw [split_cons_of_ne cut eq] at member
      rw [eq] at ih
      rcases List.mem_cons.mp member with rfl | member
      · rcases List.mem_cons.mp inside with rfl | inside
        · exact .head _
        · exact .tail _ (ih (.head _) inside)
      · exact .tail _ (ih (.tail _ member) inside)

theorem separator_not_mem_split (member : piece ∈ split separator cs) : separator ∉ piece := by
  induction cs generalizing piece with
  | nil =>
    cases List.mem_singleton.mp member
    exact List.not_mem_nil
  | cons d rest ih =>
    by_cases cut : d = separator
    · rw [cut, split_cons_self] at member
      rcases List.mem_cons.mp member with rfl | member
      · exact List.not_mem_nil
      · exact ih member
    · obtain ⟨first, others, eq⟩ := List.exists_cons_of_ne_nil (split_ne_nil separator rest)
      rw [split_cons_of_ne cut eq] at member
      rw [eq] at ih
      rcases List.mem_cons.mp member with rfl | member
      · rw [List.mem_cons, not_or]
        exact ⟨Ne.symm cut, ih (.head _)⟩
      · exact ih (.tail _ member)

theorem mem_of_mem_join (member : c ∈ join separator pieces) :
    c = separator ∨ ∃ piece ∈ pieces, c ∈ piece := by
  induction pieces with
  | nil => exact absurd member List.not_mem_nil
  | cons piece rest ih =>
    cases rest with
    | nil => exact .inr ⟨piece, .head _, member⟩
    | cons next rest =>
      rcases List.mem_append.mp member with member | member
      · exact .inr ⟨piece, .head _, member⟩
      · rcases List.mem_cons.mp member with rfl | member
        · exact .inl rfl
        · exact (ih member).imp_right fun ⟨other, inside, has⟩ => ⟨other, .tail _ inside, has⟩

theorem join_cons_of_ne_nil (piece : List Char) (more : pieces ≠ []) :
    join separator (piece :: pieces) = piece ++ separator :: join separator pieces := by
  cases pieces with
  | nil => exact absurd rfl more
  | cons next rest => rfl

theorem join_split (separator : Char) (cs : List Char) :
    join separator (split separator cs) = cs := by
  induction cs with
  | nil => rfl
  | cons d rest ih =>
    by_cases cut : d = separator
    · rw [cut, split_cons_self, join_cons_of_ne_nil [] (split_ne_nil separator rest), ih,
        List.nil_append]
    · obtain ⟨first, others, eq⟩ := List.exists_cons_of_ne_nil (split_ne_nil separator rest)
      rw [eq] at ih
      rw [split_cons_of_ne cut eq]
      cases others with
      | nil => exact congrArg (d :: ·) ih
      | cons next others => exact congrArg (d :: ·) ih

/-- The end of the first piece is where the separator stands for the first time. -/
theorem split_append_separator (free : separator ∉ piece) (rest : List Char) :
    split separator (piece ++ separator :: rest) = piece :: split separator rest := by
  induction piece with
  | nil => exact split_cons_self rest
  | cons d piece ih =>
    rw [List.mem_cons, not_or] at free
    exact split_cons_of_ne (Ne.symm free.1) (ih free.2)

theorem split_of_not_mem (free : separator ∉ piece) : split separator piece = [piece] := by
  induction piece with
  | nil => rfl
  | cons d piece ih =>
    rw [List.mem_cons, not_or] at free
    exact split_cons_of_ne (Ne.symm free.1) (ih free.2)

theorem split_join (nonempty : pieces ≠ []) (free : ∀ piece ∈ pieces, separator ∉ piece) :
    split separator (join separator pieces) = pieces := by
  induction pieces with
  | nil => exact absurd rfl nonempty
  | cons piece rest ih =>
    rw [List.forall_mem_cons] at free
    cases rest with
    | nil => exact split_of_not_mem free.1
    | cons next rest =>
      rw [join_cons_of_ne_nil piece (List.cons_ne_nil next rest), split_append_separator free.1,
        ih (List.cons_ne_nil next rest) free.2]

end Marginalia.Text
