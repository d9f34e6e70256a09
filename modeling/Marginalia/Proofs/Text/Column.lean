import Marginalia.Proofs.Text.Encoding
import Marginalia.Text.Column

/-!
# Columns and drawn text

The column of a byte is found in one of two ways: by the width of the text in front of it, or by a
walk that stops at the byte.  A row is drawn in a third way, by an expansion that counts columns of
its own.  The three pass the same characters and count the same columns, so what is drawn at the
column of a byte is what stands behind the byte.
-/

namespace Marginalia.Text

/-! ## Passing over a text -/

theorem columnAfter_cons (tab column : Nat) (c : Char) (rest : List Char) :
    columnAfter tab column (c :: rest) = columnAfter tab (advance tab column c) rest :=
  List.foldl_cons

theorem columnAfter_append (tab column : Nat) (front back : List Char) :
    columnAfter tab column (front ++ back) =
      columnAfter tab (columnAfter tab column front) back :=
  List.foldl_append

theorem le_columnAfter (tab column : Nat) (cs : List Char) : column ≤ columnAfter tab column cs := by
  induction cs generalizing column with
  | nil => exact Nat.le_refl _
  | cons c rest ih =>
    rw [columnAfter_cons]
    exact Nat.le_trans (Nat.le_add_right _ _) (ih _)

section

variable {κ : Type} [Coordinate κ] (tab : Nat) (target : κ)

/-- A walk counts the columns of what it passes. -/
theorem columnAfter_sliceFrom (position column : Nat) (cs : List Char) :
    columnAfter tab column (sliceFrom target position cs) =
      walk tab target position column cs := by
  induction cs generalizing position column with
  | nil => rfl
  | cons c rest ih =>
    rw [sliceFrom, walk]
    by_cases reached : target ≤ (position : κ)
    · rw [if_pos reached, if_pos reached]
      rfl
    · rw [if_neg reached, if_neg reached, columnAfter_cons, ih]

theorem width_slice (content : List Char) :
    width tab (slice content target) = walk tab target 0 0 content :=
  columnAfter_sliceFrom tab target 0 0 content

/-- Both ways lead to the same column. -/
theorem columnOf_eq_walk (content : List Char) :
    columnOf tab content target =
      if (Utf8.length content : κ) < target then width tab content + 1
      else walk tab target 0 0 content := by
  rw [columnOf, width_slice, ite_self]

end

/-! ## The text in front of a byte -/

/-- A text is the shortest one at the front of a content that holds a number of bytes. -/
structure Shortest (content : List Char) (byte : Int) (front : List Char) : Prop where
  begins : front <+: content
  holds : byte ≤ Utf8.length front
  least : ∀ other, other <+: content → byte ≤ Utf8.length other → front.length ≤ other.length

theorem Shortest.unique {content : List Char} {byte : Int} {front other : List Char}
    (shortest : Shortest content byte front) (also : Shortest content byte other) :
    front = other := by
  have le := shortest.least other also.begins also.holds
  have ge := also.least front shortest.begins shortest.holds
  have short := List.prefix_of_prefix_length_le shortest.begins also.begins le
  exact short.eq_of_length (Nat.le_antisymm le ge)

section

variable {target : Int} {position : Nat} {cs : List Char}

theorem sliceFrom_of_le (reached : target ≤ position) : sliceFrom target position cs = [] := by
  cases cs with
  | nil => rfl
  | cons c rest => exact if_pos reached

theorem sliceFrom_cons_of_lt {c : Char} {rest : List Char} (ahead : position < target) :
    sliceFrom target position (c :: rest) =
      c :: sliceFrom target (position + Utf8.charSize c) rest :=
  if_neg (by omega)

theorem sliceFrom_begins (target : Int) (position : Nat) (cs : List Char) :
    sliceFrom target position cs <+: cs := by
  induction cs generalizing position with
  | nil => exact List.prefix_rfl
  | cons c rest ih =>
    by_cases reached : target ≤ position
    · rw [sliceFrom_of_le reached]
      exact List.nil_prefix
    · rw [sliceFrom_cons_of_lt (by omega), List.prefix_cons_inj]
      exact ih _

theorem le_length_sliceFrom (target : Int) (position : Nat) (cs : List Char)
    (within : target ≤ position + Utf8.length cs) :
    target ≤ position + Utf8.length (sliceFrom target position cs) := by
  induction cs generalizing position with
  | nil => exact within
  | cons c rest ih =>
    by_cases reached : target ≤ position
    · omega
    · rw [Utf8.length] at within
      rw [sliceFrom_cons_of_lt (by omega), Utf8.length]
      have behind := ih (position + Utf8.charSize c) (by omega)
      omega

theorem length_sliceFrom_le {other : List Char} (begins : other <+: cs)
    (holds : target ≤ position + Utf8.length other) :
    (sliceFrom target position cs).length ≤ other.length := by
  induction cs generalizing position other with
  | nil => exact Nat.zero_le _
  | cons c rest ih =>
    by_cases reached : target ≤ position
    · rw [sliceFrom_of_le reached]
      exact Nat.zero_le _
    · rw [sliceFrom_cons_of_lt (by omega)]
      cases other with
      | nil =>
        rw [Utf8.length] at holds
        omega
      | cons d other =>
        obtain ⟨rfl, rest_begins⟩ := List.cons_prefix_cons.mp begins
        rw [Utf8.length] at holds
        exact Nat.succ_le_succ (ih rest_begins (by omega))

/-- A byte lies between characters if what is passed in front of it ends there. -/
theorem isBoundaryFrom_iff (target : Int) (position : Nat) (cs : List Char) :
    isBoundaryFrom target position cs = true ↔
      target = position + Utf8.length (sliceFrom target position cs) := by
  have same (position : Nat) :
      decide (Coordinate.Same ((position : Nat) : Int) target) = true ↔ target = position := by
    rw [decide_eq_true_iff, Coordinate.Same]
    omega
  induction cs generalizing position with
  | nil =>
    rw [isBoundaryFrom, same, sliceFrom, Utf8.length, Int.natCast_zero, Int.add_zero]
  | cons c rest ih =>
    rw [isBoundaryFrom]
    by_cases reached : target ≤ position
    · rw [if_pos reached, same, sliceFrom_of_le reached, Utf8.length, Int.natCast_zero,
        Int.add_zero]
    · rw [if_neg reached, sliceFrom_cons_of_lt (by omega), Utf8.length]
      exact (ih (position + Utf8.charSize c)).trans (by omega)

end

theorem shortest_slice {content : List Char} {byte : Int} (within : byte ≤ Utf8.length content) :
    Shortest content byte (slice content byte) where
  begins := sliceFrom_begins byte 0 content
  holds := by
    have holds := le_length_sliceFrom byte 0 content (by omega)
    simpa [slice] using holds
  least := fun other begins holds => length_sliceFrom_le begins (by omega)

theorem isBoundary_iff (content : List Char) (byte : Int) :
    isBoundary content byte = true ↔ byte = Utf8.length (slice content byte) := by
  rw [isBoundary, isBoundaryFrom_iff, slice]
  omega

/-! ## Text without tabs -/

theorem advance_of_ne_tab {c : Char} (other : c ≠ '\t') (tab column : Nat) :
    advance tab column c = column + widthOf c := by
  rw [advance, if_neg other]

theorem widthOf_space : widthOf ' ' = 1 := by decide +kernel

theorem columnAfter_spaces (tab column count : Nat) :
    columnAfter tab column (List.replicate count ' ') = column + count := by
  induction count generalizing column with
  | zero => rfl
  | succ count ih =>
    rw [List.replicate_succ, columnAfter_cons, advance_of_ne_tab (by decide), widthOf_space, ih]
    omega

theorem expandTabsFrom_of_not_mem {cs : List Char} (untabbed : '\t' ∉ cs) (tab column : Nat) :
    expandTabsFrom tab column cs = cs := by
  induction cs generalizing column with
  | nil => rfl
  | cons c rest ih =>
    rw [List.mem_cons, not_or] at untabbed
    rw [expandTabsFrom, if_neg (Ne.symm untabbed.1), ih untabbed.2, List.singleton_append]

/-! ## Expansion -/

/-- A text without tabs is its own expansion, so it makes no difference that none is made. -/
theorem expandTabs_eq (tab : Nat) (cs : List Char) : expandTabs tab cs = expandTabsFrom tab 0 cs := by
  unfold expandTabs
  by_cases tabbed : '\t' ∈ cs
  · rw [if_pos (List.contains_iff_mem.mpr tabbed)]
  · rw [if_neg (tabbed <| List.contains_iff_mem.mp ·), expandTabsFrom_of_not_mem tabbed]

theorem expandTabsFrom_append (tab column : Nat) (front back : List Char) :
    expandTabsFrom tab column (front ++ back) =
      expandTabsFrom tab column front ++
        expandTabsFrom tab (columnAfter tab column front) back := by
  induction front generalizing column with
  | nil => rfl
  | cons c rest ih =>
    rw [List.cons_append, expandTabsFrom, expandTabsFrom, ih, columnAfter_cons, List.append_assoc]

theorem tab_not_mem_expandTabsFrom (tab column : Nat) (cs : List Char) :
    '\t' ∉ expandTabsFrom tab column cs := by
  induction cs generalizing column with
  | nil => exact List.not_mem_nil
  | cons c rest ih =>
    rw [expandTabsFrom, List.mem_append, not_or]
    refine ⟨?_, ih _⟩
    by_cases tabbed : c = '\t'
    · rw [if_pos tabbed]
      exact fun member => absurd (List.eq_of_mem_replicate member) (by decide)
    · rw [if_neg tabbed]
      exact fun member => tabbed (List.mem_singleton.mp member).symm

/-- The expansion of a text takes the columns of the text, wherever tab stops are now. -/
theorem columnAfter_expandTabsFrom (other tab column : Nat) (cs : List Char) :
    columnAfter other column (expandTabsFrom tab column cs) = columnAfter tab column cs := by
  induction cs generalizing column with
  | nil => rfl
  | cons c rest ih =>
    rw [expandTabsFrom, columnAfter_append, columnAfter_cons, ← ih]
    congr 1
    by_cases tabbed : c = '\t'
    · rw [if_pos tabbed, columnAfter_spaces, advance, if_pos tabbed]
    · rw [if_neg tabbed, advance_of_ne_tab tabbed]
      exact advance_of_ne_tab tabbed other column

/-! ## The order of columns -/

theorem walk_le_columnAfter (tab : Nat) (target : Int) (position column : Nat) (cs : List Char) :
    walk tab target position column cs ≤ columnAfter tab column cs := by
  obtain ⟨rest, eq⟩ := sliceFrom_begins target position cs
  rw [← columnAfter_sliceFrom]
  conv => rhs; rw [← eq, columnAfter_append]
  exact le_columnAfter _ _ _

theorem walk_mono {target target' : Int} (le : target ≤ target') (tab position column : Nat)
    (cs : List Char) :
    walk tab target position column cs ≤ walk tab target' position column cs := by
  induction cs generalizing position column with
  | nil => exact Nat.le_refl _
  | cons c rest ih =>
    by_cases reached : target ≤ position
    · rw [walk, if_pos reached, ← columnAfter_sliceFrom]
      exact le_columnAfter _ _ _
    · rw [walk, walk, if_neg reached, if_neg (by omega)]
      exact ih _ _

/-- A byte further behind stands in no column further in front. -/
theorem columnOf_mono {byte byte' : Int} (le : byte ≤ byte') (tab : Nat) (content : List Char) :
    columnOf tab content byte ≤ columnOf tab content byte' := by
  rw [columnOf_eq_walk, columnOf_eq_walk]
  by_cases behind : (Utf8.length content : Int) < byte
  · simp only [if_pos behind, if_pos (Int.lt_of_lt_of_le behind le), Nat.le_refl]
  · rw [if_neg behind]
    by_cases behind' : (Utf8.length content : Int) < byte'
    · rw [if_pos behind']
      exact Nat.le_succ_of_le (walk_le_columnAfter tab byte 0 0 content)
    · rw [if_neg behind']
      exact walk_mono le tab 0 0 content

/-! ## Columns follow the drawn text -/

/-- The column of a byte of a content is the width of the shortest front of the content that holds
the byte, whichever way it is found.  The content is drawn without tabs, its front first, and the
front takes that width wherever tab stops are; so the rest of the content is drawn from the column
on.  Bytes behind the content stand in the column behind it. -/
theorem column_is_where_drawn (tab : Nat) (content : List Char) (byte : Int) :
    (byte ≤ Utf8.length content → ∃ front back, content = front ++ back ∧
      Shortest content byte front ∧
      (isBoundary content byte = true ↔ byte = Utf8.length front) ∧
      width tab (slice content byte) = width tab front ∧
      walk tab byte 0 0 content = width tab front ∧
      (∀ isStart, displayColumn tab content byte isStart =
        width tab front + if isStart then 1 else 0) ∧
      expandTabs tab content =
        expandTabs tab front ++ expandTabsFrom tab (columnOf tab content byte) back ∧
      ∀ other, width other (expandTabs tab front) = width tab front) ∧
    '\t' ∉ expandTabs tab content ∧
    ((Utf8.length content : Int) < byte → ∀ isStart, displayColumn tab content byte isStart =
      width tab content + 1 + if isStart then 1 else 0) := by
  refine ⟨?_, ?_, ?_⟩
  · intro within
    have shortest := shortest_slice within
    obtain ⟨back, content_eq⟩ := shortest.begins
    have walk_eq := (width_slice tab byte content).symm
    have column_eq : columnOf tab content byte = width tab (slice content byte) := by
      rw [columnOf_eq_walk, if_neg (by omega), walk_eq]
    refine ⟨slice content byte, back, content_eq.symm, shortest, isBoundary_iff content byte, rfl,
      walk_eq, ?_, ?_, ?_⟩
    · intro isStart
      rw [displayColumn, column_eq]
    · calc expandTabs tab content
        _ = expandTabsFrom tab 0 (slice content byte ++ back) := by rw [expandTabs_eq, content_eq]
        _ = _ := by rw [expandTabsFrom_append, expandTabs_eq, column_eq, width]
    · intro other
      rw [expandTabs_eq]
      exact columnAfter_expandTabsFrom other tab 0 _
  · rw [expandTabs_eq]
    exact tab_not_mem_expandTabsFrom tab 0 content
  · intro behind isStart
    rw [displayColumn, columnOf_eq_walk, if_pos behind]

/-- A byte inside a wide character that stands behind a tab: the column is the one behind the
character. -/
theorem column_is_where_drawn_in_character :
    ∃ front, Shortest ['a', '\t', '漢', 'b'] 4 front ∧
      walk 4 (4 : Int) 0 0 ['a', '\t', '漢', 'b'] = width 4 front ∧ width 4 front = 6 ∧
      expandTabs 4 front <+: expandTabs 4 ['a', '\t', '漢', 'b'] := by
  have within : (4 : Int) ≤ Utf8.length ['a', '\t', '漢', 'b'] := by decide
  obtain ⟨front, back, -, shortest, -, -, walk_eq, -, drawn, -⟩ :=
    (column_is_where_drawn 4 ['a', '\t', '漢', 'b'] 4).1 within
  have walked : walk 4 (4 : Int) 0 0 ['a', '\t', '漢', 'b'] = 6 := by decide +kernel
  exact ⟨front, shortest, walk_eq, walk_eq.symm.trans walked, ⟨_, drawn.symm⟩⟩

end Marginalia.Text
