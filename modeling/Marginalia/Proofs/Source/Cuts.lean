import Marginalia.Source.Extent

/-!
# The lines of a source

`Cuts` says what it means to cut a source into lines, without saying how it is done: every line but
the last one ends behind its only line feed, and the last one goes on to the end of the source.  A
source is cut in just one way, which is what `Extent.table` finds in one pass and what
`Extent.ofStart` finds line by line.  Counting line feeds gives the index of the line that holds a
position.
-/

namespace Marginalia.Extent

/-- The line from a byte to the line feed that ends it.  A carriage return directly in front of
the line feed belongs to the terminator. -/
def endingAt (bytes : List UInt8) (start feed : Nat) : Extent :=
  ⟨start, feed + 1,
    if start < feed ∧ bytes[feed - 1]? = some carriageReturn then 2 else 1⟩

/-- The lines into which a source is cut from a byte on. -/
inductive Cuts (bytes : List UInt8) : Nat → List Extent → Prop
  | last {start : Nat} (bounded : start ≤ bytes.length)
      (content : ∀ i, start ≤ i → bytes[i]? ≠ some lineFeed) :
      Cuts bytes start [⟨start, bytes.length, 0⟩]
  | line {start feed : Nat} {rest : List Extent} (begun : start ≤ feed)
      (content : ∀ i, start ≤ i → i < feed → bytes[i]? ≠ some lineFeed)
      (ended : bytes[feed]? = some lineFeed) (behind : Cuts bytes (feed + 1) rest) :
      Cuts bytes start (endingAt bytes start feed :: rest)

theorem terminator_endingAt (bytes : List UInt8) (start feed : Nat) :
    (endingAt bytes start feed).terminator ≠ 0 := by
  simp only [endingAt]
  split <;> decide

theorem isEmpty_endingAt (bytes : List UInt8) {start feed : Nat} (begun : start ≤ feed) :
    (endingAt bytes start feed).isEmpty = false :=
  decide_eq_false (Nat.not_le.mpr (Nat.lt_succ_of_le begun))

private theorem cuts_tableFrom (bytes rest : List UInt8) (start position : Nat) (returned : Bool)
    (unread : bytes.drop position = rest) (bounded : position ≤ bytes.length)
    (begun : start ≤ position)
    (content : ∀ i, start ≤ i → i < position → bytes[i]? ≠ some lineFeed)
    (return_iff : returned = true ↔
      start < position ∧ bytes[position - 1]? = some carriageReturn) :
    Cuts bytes start (tableFrom start position returned rest) := by
  induction rest generalizing start position returned with
  | nil =>
    have ended : position = bytes.length := by
      have := List.drop_eq_nil_iff.mp unread
      omega
    subst ended
    refine .last begun fun i le => ?_
    by_cases inside : i < bytes.length
    · exact content i le inside
    · simp [List.getElem?_eq_none (Nat.le_of_not_lt inside)]
  | cons b rest ih =>
    have here : bytes[position]? = some b := by
      have := congrArg (·[0]?) unread
      simpa using this
    have inside : position < bytes.length := by
      have := congrArg List.length unread
      simp at this
      omega
    have next : bytes.drop (position + 1) = rest := by
      rw [← List.drop_drop, unread]
      rfl
    simp only [tableFrom]
    split
    · rename_i feed
      subst feed
      have ending : ⟨start, position + 1, if returned then 2 else 1⟩ =
          endingAt bytes start position := by
        simp only [endingAt, return_iff]
      rw [ending]
      refine .line begun content here ?_
      exact ih (position + 1) (position + 1) false next inside (Nat.le_refl _)
        (fun i le lt => absurd lt (Nat.not_lt.mpr le)) (by simp)
    · rename_i other
      refine ih start (position + 1) _ next inside (by omega) ?_ ?_
      · intro i le lt
        by_cases same : i = position
        · subst same
          simpa [here] using other
        · exact content i le (by omega)
      · simp [here]
        omega

/-- The table of a source cuts it from its first byte on. -/
theorem cuts_table (bytes : List UInt8) : Cuts bytes 0 (table bytes) :=
  cuts_tableFrom bytes bytes 0 0 false (by simp) (Nat.zero_le _) (Nat.le_refl _)
    (fun _ _ lt => absurd lt (Nat.not_lt_zero _)) (by simp)

/-! ## There is one way to cut a source -/

theorem Cuts.unique {bytes : List UInt8} {start : Nat} {lines others : List Extent}
    (cuts : Cuts bytes start lines) (cuts' : Cuts bytes start others) : lines = others := by
  induction cuts generalizing others with
  | last bounded content =>
    cases cuts' with
    | last => rfl
    | line begun _ ended _ => exact absurd ended (content _ begun)
  | @line start feed rest begun content ended behind ih =>
    cases cuts' with
    | last _ content' => exact absurd ended (content' _ begun)
    | @line _ feed' rest' begun' content' ended' behind' =>
      have same : feed = feed' := by
        rcases Nat.lt_trichotomy feed feed' with lt | eq | gt
        · exact absurd ended (content' _ begun lt)
        · exact eq
        · exact absurd ended' (content _ begun' gt)
      subst same
      rw [ih behind']

private theorem head_tableFrom (start position : Nat) (returned : Bool) (rest : List UInt8) :
    (tableFrom start position returned rest).head? =
      some (readFrom start position returned rest) := by
  induction rest generalizing position returned with
  | nil => rfl
  | cons b rest ih =>
    simp only [tableFrom, readFrom]
    split
    · rfl
    · exact ih _ _

theorem Cuts.readFrom_eq {bytes : List UInt8} {start : Nat} {line : Extent} {rest : List Extent}
    (bounded : start ≤ bytes.length) (cuts : Cuts bytes start (line :: rest)) :
    readFrom start start false (bytes.drop start) = line := by
  have table := cuts_tableFrom bytes _ start start false rfl bounded (Nat.le_refl _)
    (fun _ le lt => absurd lt (Nat.not_lt.mpr le)) (by simp)
  have head := head_tableFrom start start false (bytes.drop start)
  rw [table.unique cuts] at head
  exact (Option.some.inj head).symm

/-! ## Lines within the source -/

theorem Cuts.bounds {bytes : List UInt8} {start : Nat} {lines : List Extent}
    (cuts : Cuts bytes start lines) :
    ∀ line ∈ lines, start ≤ line.start ∧ line.start ≤ line.stop ∧ line.stop ≤ bytes.length := by
  induction cuts with
  | last bounded _ => simpa using bounded
  | @line start feed rest begun _ ended _ ih =>
    have inside : feed < bytes.length := (List.getElem?_eq_some_iff.mp ended).1
    intro line member
    rcases List.mem_cons.mp member with rfl | member
    · exact ⟨Nat.le_refl _, Nat.le_succ_of_le begun, inside⟩
    · have := ih line member
      exact ⟨by omega, this.2⟩

/-- Lines do not overlap. -/
theorem Cuts.stop_le_start {bytes : List UInt8} {start i j : Nat} {lines : List Extent}
    {line other : Extent} (cuts : Cuts bytes start lines) (found : lines[i]? = some line)
    (found' : lines[j]? = some other) (lt : i < j) : line.stop ≤ other.start := by
  induction cuts generalizing i j with
  | last =>
    cases j with
    | zero => exact absurd lt (Nat.not_lt_zero _)
    | succ j => simp at found'
  | line begun content ended behind ih =>
    cases j with
    | zero => exact absurd lt (Nat.not_lt_zero _)
    | succ j =>
      cases i with
      | zero =>
        cases found
        exact (behind.bounds other (List.mem_of_getElem? found')).1
      | succ i => exact ih found found' (Nat.lt_of_succ_lt_succ lt)

/-- The line without a terminator is the last one, and goes on to the end of the source. -/
theorem Cuts.of_unterminated {bytes : List UInt8} {start i : Nat} {lines : List Extent}
    {line : Extent} (cuts : Cuts bytes start lines) (found : lines[i]? = some line)
    (unterminated : line.terminator = 0) : i + 1 = lines.length ∧ line.stop = bytes.length := by
  induction cuts generalizing i with
  | last =>
    cases i with
    | zero =>
      cases found
      exact ⟨rfl, rfl⟩
    | succ i => simp at found
  | @line start feed rest begun content ended behind ih =>
    cases i with
    | zero =>
      cases found
      exact absurd unterminated (terminator_endingAt bytes start feed)
    | succ i =>
      obtain ⟨last, stop_eq⟩ := ih found
      exact ⟨congrArg Nat.succ last, stop_eq⟩

/-- Every line of a source is what is read of it from where the line begins. -/
theorem Cuts.ofStart_eq {bytes : List UInt8} {start : Nat} {lines : List Extent}
    (bounded : start ≤ bytes.length) (cuts : Cuts bytes start lines) :
    ∀ line ∈ lines, ofStart bytes line.start = line := by
  have whole := cuts
  have bounds := cuts.bounds
  induction cuts with
  | last _ _ =>
    intro line member
    have read := whole.readFrom_eq bounded
    have inside := bounds line member
    simp only [List.mem_singleton] at member
    subst member
    simp [ofStart, read]
  | @line start feed rest begun content ended behind ih =>
    have inside : feed < bytes.length := (List.getElem?_eq_some_iff.mp ended).1
    intro line member
    rcases List.mem_cons.mp member with rfl | member
    · have read := whole.readFrom_eq bounded
      have within : (endingAt bytes start feed).stop ≤ bytes.length := inside
      rw [ofStart, show (endingAt bytes start feed).start = start from rfl, read,
        Nat.min_eq_left within]
    · exact ih inside behind behind.bounds line member

end Marginalia.Extent
