import Marginalia.Proofs.Source.Cuts

/-!
# Positions and their lines

The line that holds a position is told by the line feeds in front of the position.  Positions that
grow are held by lines that do not go back, and every position of a source, its end included, is
held by exactly one line.  Only the last line can be without bytes, so the lines that have some are
counted from the front.
-/

namespace Marginalia.Extent

variable {bytes : List UInt8}

/-- The line feeds in front of a position. -/
def lineAt (bytes : List UInt8) (position : Nat) : Nat := (bytes.take position).count lineFeed

/-- Lines of a source that have bytes. -/
def fullLines (bytes : List UInt8) : Nat := (table bytes).countP (!·.isEmpty)

theorem holds_natCast (line : Extent) (position : Nat) :
    line.Holds (position : Int) ↔
      line.start ≤ position ∧
        (position < line.stop ∨ line.terminator = 0 ∧ position = line.stop) := by
  simp only [Holds, Coordinate.Same]
  omega

/-! ## Counting line feeds -/

theorem lineAt_succ (position : Nat) :
    lineAt bytes (position + 1) =
      lineAt bytes position + if bytes[position]? = some lineFeed then 1 else 0 := by
  unfold lineAt
  rw [List.take_add_one, List.count_append]
  cases found : bytes[position]? with
  | none => simp
  | some b => by_cases feed : b = lineFeed <;> simp [feed]

theorem lineAt_mono {position later : Nat} (le : position ≤ later) :
    lineAt bytes position ≤ lineAt bytes later := by
  induction le with
  | refl => exact Nat.le_refl _
  | step _ ih =>
    rw [lineAt_succ]
    omega

theorem lineAt_eq_of_content {start position : Nat} (le : start ≤ position)
    (content : ∀ i, start ≤ i → i < position → bytes[i]? ≠ some lineFeed) :
    lineAt bytes position = lineAt bytes start := by
  induction le with
  | refl => rfl
  | @step position le ih =>
    rw [lineAt_succ, if_neg (content position le (Nat.lt_succ_self _)), Nat.add_zero]
    exact ih fun i start_le lt => content i start_le (Nat.lt_succ_of_lt lt)

/-! ## The line of a position -/

theorem Cuts.lineAt_of_holds {start i position : Nat} {lines : List Extent} {line : Extent}
    (cuts : Cuts bytes start lines) (found : lines[i]? = some line)
    (holds : line.Holds (position : Int)) :
    lineAt bytes position = lineAt bytes start + i := by
  rw [holds_natCast] at holds
  induction cuts generalizing i with
  | last bounded content =>
    cases i with
    | zero =>
      cases found
      exact lineAt_eq_of_content holds.1 fun i le _ => content i le
    | succ i => simp at found
  | @line start feed rest begun content ended behind ih =>
    cases i with
    | zero =>
      cases found
      have within : position < feed + 1 := by
        rcases holds.2 with lt | ⟨unterminated, _⟩
        · exact lt
        · exact absurd unterminated (terminator_endingAt bytes start feed)
      exact lineAt_eq_of_content holds.1 fun i le lt => content i le (by omega)
    | succ i =>
      rw [ih found, lineAt_succ, if_pos ended, lineAt_eq_of_content begun content]
      omega

theorem Cuts.exists_holds {start position : Nat} {lines : List Extent}
    (cuts : Cuts bytes start lines) (le : start ≤ position) (inside : position ≤ bytes.length) :
    ∃ (i : Nat) (line : Extent), lines[i]? = some line ∧ line.Holds (position : Int) := by
  induction cuts with
  | last bounded content =>
    refine ⟨0, _, rfl, (holds_natCast _ _).mpr ⟨le, ?_⟩⟩
    rcases Nat.lt_or_eq_of_le inside with lt | eq
    · exact .inl lt
    · exact .inr ⟨rfl, eq⟩
  | @line start feed rest begun content ended behind ih =>
    by_cases passed : feed + 1 ≤ position
    · obtain ⟨i, line, found, holds⟩ := ih passed
      exact ⟨i + 1, line, found, holds⟩
    · exact ⟨0, _, rfl, (holds_natCast _ _).mpr ⟨le, .inl (Nat.lt_of_not_le passed)⟩⟩

/-- A line that holds a position has as many line feeds in front of it as the position. -/
theorem lineAt_of_holds {i position : Nat} {line : Extent} (found : (table bytes)[i]? = some line)
    (holds : line.Holds (position : Int)) : lineAt bytes position = i := by
  have := (cuts_table bytes).lineAt_of_holds found holds
  simpa [lineAt] using this

/-- Every position up to the end of a source is held by the line that has the line feeds in front
of the position as its index. -/
theorem exists_line {position : Nat} (inside : position ≤ bytes.length) :
    ∃ line, (table bytes)[lineAt bytes position]? = some line ∧ line.Holds (position : Int) := by
  obtain ⟨i, line, found, holds⟩ := (cuts_table bytes).exists_holds (Nat.zero_le _) inside
  rw [lineAt_of_holds found holds]
  exact ⟨line, found, holds⟩

theorem Holds.nonneg {line : Extent} {position : Int} (holds : line.Holds position) :
    0 ≤ position :=
  Int.le_trans (Int.natCast_nonneg line.start) holds.1

/-- A line that holds a position holds all others from its beginning up to there. -/
theorem Holds.of_le {line : Extent} {position earlier : Int} (holds : line.Holds position)
    (begun : (line.start : Int) ≤ earlier) (le : earlier ≤ position) : line.Holds earlier := by
  simp only [Holds, Coordinate.Same] at *
  omega

theorem lineAt_toNat_of_holds {i : Nat} {line : Extent} {position : Int}
    (found : (table bytes)[i]? = some line) (holds : line.Holds position) :
    lineAt bytes position.toNat = i := by
  obtain ⟨position, rfl⟩ := Int.eq_ofNat_of_zero_le holds.nonneg
  exact lineAt_of_holds found holds

theorem Cuts.holds_start {start : Nat} {lines : List Extent} (cuts : Cuts bytes start lines) :
    ∀ line ∈ lines, line.Holds (line.start : Int) := by
  induction cuts with
  | @last start bounded _ =>
    intro line member
    cases List.mem_singleton.mp member
    rw [holds_natCast]
    dsimp only
    omega
  | @line start feed rest begun _ _ _ ih =>
    intro line member
    rcases List.mem_cons.mp member with rfl | member
    · exact (holds_natCast _ _).mpr ⟨Nat.le_refl _, .inl (Nat.lt_succ_of_le begun)⟩
    · exact ih line member

theorem stop_le_stop {i j : Nat} {line other : Extent} (found : (table bytes)[i]? = some line)
    (found' : (table bytes)[j]? = some other) (le : i ≤ j) : line.stop ≤ other.stop := by
  rcases Nat.lt_or_eq_of_le le with lt | rfl
  · have bounds := (cuts_table bytes).bounds other (List.mem_of_getElem? found')
    exact Nat.le_trans ((cuts_table bytes).stop_le_start found found' lt) bounds.2.1
  · rw [found] at found'
    cases found'
    exact Nat.le_refl _

theorem start_le_start {i j : Nat} {line other : Extent} (found : (table bytes)[i]? = some line)
    (found' : (table bytes)[j]? = some other) (le : i ≤ j) : line.start ≤ other.start := by
  rcases Nat.lt_or_eq_of_le le with lt | rfl
  · have bounds := (cuts_table bytes).bounds line (List.mem_of_getElem? found)
    exact Nat.le_trans bounds.2.1 ((cuts_table bytes).stop_le_start found found' lt)
  · rw [found] at found'
    cases found'
    exact Nat.le_refl _

/-- A later position is not on an earlier line. -/
theorem index_le_of_holds {i j : Nat} {line other : Extent} {position later : Int}
    (found : (table bytes)[i]? = some line) (holds : line.Holds position)
    (found' : (table bytes)[j]? = some other) (holds' : other.Holds later)
    (le : position ≤ later) : i ≤ j := by
  rw [← lineAt_toNat_of_holds found holds, ← lineAt_toNat_of_holds found' holds']
  exact lineAt_mono (Int.toNat_le_toNat le)

/-! ## Lines against a position -/

section

variable {i position : Nat} {line : Extent} (found : (table bytes)[i]? = some line)

include found

theorem holds_iff_lineAt_eq (inside : position ≤ bytes.length) :
    line.Holds (position : Int) ↔ lineAt bytes position = i := by
  refine ⟨lineAt_of_holds found, fun same => ?_⟩
  obtain ⟨other, found', holds⟩ := exists_line inside
  rw [same, found] at found'
  cases found'
  exact holds

/-- A line begins in front of the positions on it and on the lines behind it. -/
theorem start_le_iff_le_lineAt (inside : position ≤ bytes.length) :
    line.start ≤ position ↔ i ≤ lineAt bytes position := by
  obtain ⟨other, found', holds⟩ := exists_line inside
  rw [holds_natCast] at holds
  refine ⟨fun begun => Nat.le_of_not_lt fun lt => ?_, fun le => ?_⟩
  · have apart := (cuts_table bytes).stop_le_start found' found lt
    have bounds := (List.getElem?_eq_some_iff.mp found).1
    rcases holds.2 with within | ⟨unterminated, -⟩
    · omega
    · have last := ((cuts_table bytes).of_unterminated found' unterminated).1
      omega
  · exact Nat.le_trans (start_le_start found found' le) holds.1

/-- A line stops behind the bytes on it and on the lines in front of it. -/
theorem lt_stop_iff_lineAt_le (lt : position < bytes.length) :
    position < line.stop ↔ lineAt bytes position ≤ i := by
  obtain ⟨other, found', holds⟩ := exists_line (Nat.le_of_lt lt)
  rw [holds_natCast] at holds
  have within : position < other.stop := by
    rcases holds.2 with within | ⟨unterminated, -⟩
    · exact within
    · rwa [((cuts_table bytes).of_unterminated found' unterminated).2]
  refine ⟨fun before => Nat.le_of_not_lt fun above => ?_, fun le => ?_⟩
  · have apart := (cuts_table bytes).stop_le_start found found' above
    omega
  · exact Nat.lt_of_lt_of_le within (stop_le_stop found' found le)

end

/-! ## Lines with bytes -/

theorem Cuts.isEmpty_iff {start i : Nat} {lines : List Extent} {line : Extent}
    (cuts : Cuts bytes start lines) (found : lines[i]? = some line) :
    line.isEmpty = true ↔ lines.countP (!·.isEmpty) ≤ i := by
  induction cuts generalizing i with
  | last bounded content =>
    cases i with
    | zero => cases found; simp
    | succ i => simp at found
  | @line start feed rest begun content ended behind ih =>
    cases i with
    | zero =>
      cases found
      simp [isEmpty_endingAt bytes begun]
    | succ i =>
      rw [ih found, List.countP_cons, isEmpty_endingAt bytes begun]
      simp

/-- There is at most one line without bytes. -/
theorem Cuts.length_le {start : Nat} {lines : List Extent} (cuts : Cuts bytes start lines) :
    lines.length ≤ lines.countP (!·.isEmpty) + 1 := by
  induction cuts with
  | last => exact Nat.succ_le_succ (Nat.zero_le _)
  | line begun _ _ _ ih =>
    rw [List.length_cons, List.countP_cons_of_pos (by simp [isEmpty_endingAt bytes begun])]
    exact Nat.succ_le_succ ih

theorem Cuts.countP_drop {start : Nat} {lines : List Extent} (cuts : Cuts bytes start lines)
    (i : Nat) : (lines.drop i).countP (!·.isEmpty) = lines.countP (!·.isEmpty) - i := by
  induction cuts generalizing i with
  | @last start bounded content =>
    cases i with
    | zero => rfl
    | succ i =>
      have : [Extent.mk start bytes.length 0].countP (!·.isEmpty) ≤ 1 := List.countP_le_length
      simp only [List.drop_succ_cons, List.drop_nil, List.countP_nil]
      omega
  | @line start feed rest begun content ended behind ih =>
    cases i with
    | zero => rfl
    | succ i =>
      rw [List.drop_succ_cons, ih, List.countP_cons, isEmpty_endingAt bytes begun]
      simp

/-- A line is without bytes only behind all lines that have some. -/
theorem isEmpty_iff {i : Nat} {line : Extent} (found : (table bytes)[i]? = some line) :
    line.isEmpty = true ↔ fullLines bytes ≤ i :=
  (cuts_table bytes).isEmpty_iff found

/-- The lines with bytes from some line on. -/
theorem countP_drop_table (i : Nat) :
    ((table bytes).drop i).countP (!·.isEmpty) = fullLines bytes - i :=
  (cuts_table bytes).countP_drop i

theorem fullLines_le_length (bytes : List UInt8) :
    fullLines bytes ≤ (table bytes).length :=
  List.countP_le_length

end Marginalia.Extent
