import Mathlib.Data.Int.ConditionallyCompleteOrder
import Mathlib.Data.Prod.Lex
import Mathlib.Order.Hom.Set
import Marginalia.Proofs.Source.Reading

/-!
# Locating positions

The place of a position is its line and the bytes on that line in front of it.  Lines are found one
by one, each from where the one in front of it stops, for as long as they have a terminator; a place
is on such a line, and only the last line has one behind its bytes.  Every position has a place,
every place has a position, and places in the order of words are positions in their order.
-/

namespace Marginalia

namespace Extent

variable {bytes : List UInt8}

/-! ## Lines found one by one -/

/-- Where a line begins: the lines in front of it are passed one after the other. -/
def lineStart (bytes : List UInt8) (line : Nat) : Nat :=
  (fun start => (ofStart bytes start).stop)^[line] 0

/-- The line with an index. -/
def nth (bytes : List UInt8) (line : Nat) : Extent := ofStart bytes (lineStart bytes line)

theorem Cuts.iterate_eq_start {start i : Nat} {lines : List Extent} {line : Extent}
    (bounded : start ≤ bytes.length) (cuts : Cuts bytes start lines)
    (found : lines[i]? = some line) :
    (fun start => (ofStart bytes start).stop)^[i] start = line.start := by
  have whole := cuts
  induction cuts generalizing i with
  | last =>
    cases i with
    | zero =>
      cases found
      rfl
    | succ i => simp at found
  | @line start feed rest begun content ended behind ih =>
    cases i with
    | zero =>
      cases found
      rfl
    | succ i =>
      have inside : feed < bytes.length := (List.getElem?_eq_some_iff.mp ended).1
      have first : ofStart bytes start = endingAt bytes start feed :=
        whole.ofStart_eq bounded _ List.mem_cons_self
      rw [Function.iterate_succ_apply, first]
      exact ih inside found behind

theorem Cuts.exists_unterminated {start : Nat} {lines : List Extent}
    (cuts : Cuts bytes start lines) :
    ∃ (i : Nat) (line : Extent), lines[i]? = some line ∧ line.terminator = 0 := by
  induction cuts with
  | last => exact ⟨0, _, rfl, rfl⟩
  | line _ _ _ _ ih =>
    obtain ⟨i, line, found, unterminated⟩ := ih
    exact ⟨i + 1, line, found, unterminated⟩

/-- A line of the table is the one that is found behind those in front of it. -/
theorem eq_nth {i : Nat} {line : Extent} (found : (table bytes)[i]? = some line) :
    line = nth bytes i ∧ line.start = lineStart bytes i := by
  have cuts := cuts_table bytes
  have start_eq : lineStart bytes i = line.start := cuts.iterate_eq_start (Nat.zero_le _) found
  rw [nth, start_eq]
  exact ⟨(cuts.ofStart_eq (Nat.zero_le _) line (List.mem_of_getElem? found)).symm, rfl⟩

/-- The lines go on behind a terminator and nowhere else. -/
theorem getElem?_table_nth_iff {i : Nat} :
    (table bytes)[i]? = some (nth bytes i) ↔ ∀ j < i, (nth bytes j).terminator ≠ 0 := by
  constructor
  · intro found j lt unterminated
    have inside := (List.getElem?_eq_some_iff.mp found).1
    have found' : (table bytes)[j]? = some (table bytes)[j] := List.getElem?_eq_getElem _
    rw [(eq_nth found').1] at found'
    have last := ((cuts_table bytes).of_unterminated found' unterminated).1
    omega
  · intro terminated
    obtain ⟨j, line, found, unterminated⟩ := (cuts_table bytes).exists_unterminated
    have last := ((cuts_table bytes).of_unterminated found unterminated).1
    rw [(eq_nth found).1] at unterminated
    have inside : i < (table bytes).length := by
      by_contra beyond
      exact terminated j (by omega) unterminated
    have found' : (table bytes)[i]? = some (table bytes)[i] := List.getElem?_eq_getElem inside
    rw [found', ← (eq_nth found').1]

/-! ## Places -/

/-- A line and a number of bytes on it: the lines reach it, and it has more bytes than that; of the
last line all bytes may be taken. -/
structure IsPlace (bytes : List UInt8) (place : Nat × Int) : Prop where
  reached : ∀ line < place.1, (nth bytes line).terminator ≠ 0
  nonneg : 0 ≤ place.2
  within : place.2 < (nth bytes place.1).stop - (lineStart bytes place.1 : Int) ∨
    (nth bytes place.1).terminator = 0 ∧
      place.2 = (nth bytes place.1).stop - (lineStart bytes place.1 : Int)

/-- The place of a position. -/
def placeOf (bytes : List UInt8) (position : Int) : Nat × Int :=
  let line := lineAt bytes position.toNat
  (line, position - lineStart bytes line)

/-- Where the line begins and the bytes on it make up the position. -/
theorem lineStart_add_placeOf (bytes : List UInt8) (position : Int) :
    (lineStart bytes (placeOf bytes position).1 : Int) + (placeOf bytes position).2 = position := by
  simp only [placeOf]
  omega

theorem isPlace_iff {place : Nat × Int} :
    IsPlace bytes place ↔ ∃ line, (table bytes)[place.1]? = some line ∧
      line.start = lineStart bytes place.1 ∧
      line.Holds ((lineStart bytes place.1 : Int) + place.2) := by
  constructor
  · rintro ⟨reached, nonneg, within⟩
    have found := getElem?_table_nth_iff.mpr reached
    have start_eq := (eq_nth found).2
    refine ⟨_, found, start_eq, ?_⟩
    simp only [Holds, Coordinate.Same, start_eq]
    omega
  · rintro ⟨line, found, start_eq, holds⟩
    obtain rfl := (eq_nth found).1
    simp only [Holds, Coordinate.Same, start_eq] at holds
    exact ⟨getElem?_table_nth_iff.mp found, by omega, by omega⟩

section

variable {position : Int} (nonneg : 0 ≤ position) (inside : position ≤ bytes.length)

include nonneg inside

theorem exists_line_placeOf : ∃ line, (table bytes)[(placeOf bytes position).1]? = some line ∧
    line.start = lineStart bytes (placeOf bytes position).1 ∧ line.Holds position := by
  obtain ⟨position, rfl⟩ := Int.eq_ofNat_of_zero_le nonneg
  obtain ⟨line, found, holds⟩ := exists_line (Int.ofNat_le.mp inside)
  exact ⟨line, found, (eq_nth found).2, holds⟩

theorem isPlace_placeOf : IsPlace bytes (placeOf bytes position) := by
  obtain ⟨line, found, start_eq, holds⟩ := exists_line_placeOf nonneg inside
  refine isPlace_iff.mpr ⟨line, found, start_eq, ?_⟩
  rwa [lineStart_add_placeOf]

end

/-- Later positions have later places: a later line, or else more bytes on the same line. -/
theorem placeOf_lt {position later : Int} (lt : position < later) :
    toLex (placeOf bytes position) < toLex (placeOf bytes later) := by
  have lines_le := @lineAt_mono bytes _ _ (Int.toNat_le_toNat (Int.le_of_lt lt))
  rw [Prod.Lex.toLex_lt_toLex]
  rcases Nat.lt_or_eq_of_le lines_le with lines_lt | same
  · exact .inl lines_lt
  · refine .inr ⟨same, ?_⟩
    simp only [placeOf, same]
    omega

/-- Every place is that of a position of the source. -/
theorem exists_placeOf_eq {place : Nat × Int} (isPlace : IsPlace bytes place) :
    ∃ position : Int, 0 ≤ position ∧ position ≤ bytes.length ∧ placeOf bytes position = place := by
  obtain ⟨line, found, start_eq, holds⟩ := isPlace_iff.mp isPlace
  have bounds := (cuts_table bytes).bounds line (List.mem_of_getElem? found)
  have line_eq := lineAt_toNat_of_holds found holds
  refine ⟨_, holds.nonneg, ?_, ?_⟩
  · simp only [Holds, Coordinate.Same] at holds
    omega
  · apply Prod.ext
    · exact line_eq
    · simp only [placeOf, line_eq]
      omega

end Extent

namespace Contents

open Extent (table lineStart IsPlace placeOf)

theorem locate_eq_placeOf {bytes : List UInt8} {position : Int} (nonneg : 0 ≤ position)
    (inside : position ≤ bytes.length) :
    locate bytes position = .ok (placeOf bytes position) := by
  have point : (⟨position, ((0 : Nat) : Int)⟩ : Span Int).Inside bytes :=
    ⟨nonneg, Int.le_refl _, by simpa [Span.stop_eq] using inside⟩
  obtain ⟨c, first, last, succeeded, dictates⟩ := read_dictated point 0 0
  obtain ⟨-, line, found, column_eq⟩ := dictates.start_of_span rfl
  have first_eq : first = Extent.lineAt bytes position.toNat := dictates.lineAt_offset.symm
  have line_eq : c.line = Extent.lineAt bytes position.toNat := by
    rw [dictates.line_eq, Nat.zero_min, Nat.sub_zero, first_eq]
  have start_eq := (Extent.eq_nth found).2
  rw [start_eq, first_eq] at column_eq
  have located : locate bytes position = .ok (c.line, c.column) :=
    congrArg (Except.map _) succeeded
  rw [located, line_eq, column_eq]
  rfl

/-- Locating is an isomorphism from the positions of a source, its end included, onto its places in
the order of lines and then of bytes: it never fails, and where the line begins and the bytes in
front make up the position.  Behind the source it fails on account of the position. -/
theorem locate_orderIso (bytes : List UInt8) :
    (∃ place : {x : Int // 0 ≤ x ∧ x ≤ bytes.length} ≃o
        {p : Nat ×ₗ Int // IsPlace bytes (ofLex p)},
      ∀ position, locate bytes position.1 = .ok (ofLex (place position).1) ∧
        (lineStart bytes (ofLex (place position).1).1 : Int) + (ofLex (place position).1).2 =
          position.1) ∧
    ∀ position : Int, bytes.length < position →
      ∃ e, locate bytes position = .error e ∧ e.code = "OutOfBounds" ∧ e.span = ⟨position, 0⟩ := by
  constructor
  · let place (position : {x : Int // 0 ≤ x ∧ x ≤ bytes.length}) :
        {p : Nat ×ₗ Int // IsPlace bytes (ofLex p)} :=
      ⟨toLex (placeOf bytes position.1), Extent.isPlace_placeOf position.2.1 position.2.2⟩
    have ascending : StrictMono place := fun position later lt => Extent.placeOf_lt lt
    have onto : Function.Surjective place := by
      rintro ⟨p, isPlace⟩
      obtain ⟨position, nonneg, inside, eq⟩ := Extent.exists_placeOf_eq isPlace
      exact ⟨⟨position, nonneg, inside⟩, Subtype.ext (congrArg toLex eq)⟩
    refine ⟨ascending.orderIsoOfSurjective place onto, ?_⟩
    rintro ⟨position, nonneg, inside⟩
    exact ⟨locate_eq_placeOf nonneg inside, Extent.lineStart_add_placeOf bytes position⟩
  · intro position beyond
    have stop : (bytes.length : Int) < (⟨position, ((0 : Nat) : Int)⟩ : Span Int).stop := by
      simpa [Span.stop_eq] using beyond
    exact ⟨_, congrArg (Except.map _) (read_of_exceeds 0 0 stop), rfl, rfl⟩

/-- The line `a` with a terminator of two bytes and an empty line: the position behind them is on the
empty line, and the next one is on none. -/
theorem locate_orderIso_behind_terminator :
    (([0x61, 0x0D, 0x0A] : List UInt8).length : Int) < 4 ∧
      (∃ place : {x : Int // 0 ≤ x ∧ x ≤ ([0x61, 0x0D, 0x0A] : List UInt8).length} ≃o
          {p : Nat ×ₗ Int // IsPlace [0x61, 0x0D, 0x0A] (ofLex p)},
        ∀ position, locate [0x61, 0x0D, 0x0A] position.1 = .ok (ofLex (place position).1)) ∧
      ∃ e, locate [0x61, 0x0D, 0x0A] (4 : Int) = .error e ∧ e.code = "OutOfBounds" ∧
        e.span = ⟨4, 0⟩ := by
  obtain ⟨⟨place, located⟩, beyond⟩ := locate_orderIso [0x61, 0x0D, 0x0A]
  exact ⟨by decide, ⟨place, fun position => (located position).1⟩, beyond 4 (by decide)⟩

example : locate [0x61, 0x0D, 0x0A] (2 : Int) = .ok (0, 2) := rfl

example : locate [0x61, 0x0D, 0x0A] (3 : Int) = .ok (1, 0) := rfl

end Contents

end Marginalia
