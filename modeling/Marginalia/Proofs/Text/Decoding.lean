import Marginalia.Source.Extent
import Marginalia.Text.Utf8

/-!
# Line feeds in decoded text

A line feed, as any character of one byte, is decoded from its own byte and from nothing else,
well-formed text or not: what is read of a longer character is too large for it from the second byte
on.  After a line feed the decoder starts afresh, so text can be decoded line by line.
-/

namespace Marginalia.Utf8

open Extent (lineFeed)

/-- A character read in part that cannot become one of a single byte. -/
structure Pending.Wide (p : Pending) : Prop where
  least_ge : 0x80 ≤ p.least
  most_le : p.most ≤ 0xBF
  bits_ge : 2 ≤ p.bits * 64 + p.least % 64
  last_ge : p.more = 0 → 0x80 ≤ p.bits * 64 + p.least % 64

/-- A number that is no code point gives the null character. -/
theorem eq_toNat_of_ofNat_eq {n : Nat} {c : Char} (same : Char.ofNat n = c) :
    n = c.toNat ∨ c.toNat = 0 := by
  subst same
  by_cases valid : n.isValidChar
  · rw [Char.ofNat, dif_pos valid]
    exact .inl rfl
  · rw [Char.ofNat, dif_neg valid]
    exact .inr rfl

/-- A character that is its own byte, and not the null character. -/
structure OfByte (a : UInt8) (c : Char) : Prop where
  toNat_eq : c.toNat = a.toNat
  pos : 0 < a.toNat
  lt : a.toNat < 0x80

theorem ofByte_feed : OfByte lineFeed '\n' := ⟨rfl, by decide, by decide⟩

namespace OfByte

variable {a : UInt8} {c : Char} (own : OfByte a c)

include own

theorem ofNat_ne {n : Nat} (other : n ≠ a.toNat) : Char.ofNat n ≠ c := by
  intro same
  have toNat_eq := own.toNat_eq
  rcases eq_toNat_of_ofNat_eq same with n_eq | null
  · exact other (n_eq.trans toNat_eq)
  · have pos := own.pos
    omega

theorem replacement_ne : replacement ≠ c := by
  rintro rfl
  have toNat_eq : 0xFFFD = a.toNat := own.toNat_eq
  have lt := own.lt
  omega

end OfByte

/-! ## One byte -/

/-- What a byte can do at the start of a character: it is one, it is broken, or it begins one that is
not going to be a single byte. -/
inductive Starts (b : UInt8) : List Char × Option Pending → Prop
  | single : Starts b ([Char.ofNat b.toNat], none)
  | broken : Starts b ([replacement], none)
  | begun {p : Pending} (wide : p.Wide) : Starts b ([], some p)

theorem starts_start (b : UInt8) : Starts b (start b) := by
  have byte := b.toNat_lt
  unfold start
  dsimp only
  iterate 9 (split; rotate_left)
  · exact .broken
  · exact .single
  · exact .broken
  all_goals
    refine .begun ⟨?_, ?_, ?_, fun last => ?_⟩
  all_goals
    dsimp only at *
    omega

theorem start_wide (b : UInt8) : ∀ p ∈ (start b).2, p.Wide := by
  have started := starts_start b
  generalize start b = result at *
  cases started with
  | single | broken => simp
  | begun wide =>
    rintro p ⟨⟩
    exact wide

theorem OfByte.not_mem_start {a b : UInt8} {c : Char} (own : OfByte a c) (other : b ≠ a) :
    c ∉ (start b).1 := by
  have value_ne : b.toNat ≠ a.toNat := fun same => other (UInt8.toNat_inj.mp same)
  have started := starts_start b
  generalize start b = result at *
  cases started with
  | single => simpa using (own.ofNat_ne value_ne).symm
  | broken => simpa using own.replacement_ne.symm
  | begun => simp

theorem step_wide {state : Option Pending} (wide : ∀ p ∈ state, p.Wide) (b : UInt8) :
    ∀ p ∈ (step state b).2, p.Wide := by
  cases state with
  | none => exact start_wide b
  | some p =>
    have p_wide := wide p rfl
    have bits_ge := p_wide.bits_ge
    have least_ge := p_wide.least_ge
    have most_le := p_wide.most_le
    simp only [step]
    split
    · rename_i fits
      split
      · rename_i last
        intro q found
        cases found
      · rename_i more more_eq
        intro q found
        cases found
        have enough : 2 ≤ p.bits * 64 + b.toNat % 64 := by omega
        refine ⟨Nat.le_refl _, Nat.le_refl _, ?_, fun _ => ?_⟩
        all_goals
          dsimp only
          omega
    · exact start_wide b

/-- A byte other than that of a character does not give it. -/
theorem OfByte.not_mem_step {a b : UInt8} {c : Char} (own : OfByte a c) {state : Option Pending}
    (wide : ∀ p ∈ state, p.Wide) (other : b ≠ a) : c ∉ (step state b).1 := by
  cases state with
  | none => exact own.not_mem_start other
  | some p =>
    have p_wide := wide p rfl
    have bits_ge := p_wide.bits_ge
    have least_ge := p_wide.least_ge
    have most_le := p_wide.most_le
    simp only [step]
    split
    · rename_i fits
      split
      · rename_i last
        have last_ge := p_wide.last_ge last
        have lt := own.lt
        have large : p.bits * 64 + b.toNat % 64 ≠ a.toNat := by omega
        simpa using (own.ofNat_ne large).symm
      · simp
    · simp [own.not_mem_start other, own.replacement_ne.symm]

/-- A line feed ends whatever was read in part. -/
theorem step_feed {state : Option Pending} (wide : ∀ p ∈ state, p.Wide) :
    ∃ broken, step state lineFeed = (broken ++ ['\n'], none) ∧ '\n' ∉ broken := by
  cases state with
  | none => exact ⟨[], rfl, by simp⟩
  | some p =>
    have least_ge := (wide p rfl).least_ge
    have away : ¬(p.least ≤ lineFeed.toNat ∧ lineFeed.toNat ≤ p.most) := by
      have : lineFeed.toNat = 10 := rfl
      omega
    refine ⟨[replacement], ?_, by simpa using ofByte_feed.replacement_ne.symm⟩
    simp only [step, if_neg away]
    rfl

/-! ## Many bytes -/

theorem OfByte.not_mem_decodeFrom {a : UInt8} {c : Char} (own : OfByte a c)
    {state : Option Pending} (wide : ∀ p ∈ state, p.Wide) {bytes : List UInt8}
    (absent : a ∉ bytes) : c ∉ decodeFrom state bytes := by
  induction bytes generalizing state with
  | nil =>
    unfold decodeFrom
    split <;> simp [own.replacement_ne.symm]
  | cons b rest ih =>
    rw [List.mem_cons, not_or] at absent
    rw [decodeFrom, List.mem_append, not_or]
    exact ⟨own.not_mem_step wide (Ne.symm absent.1), ih (step_wide wide b) absent.2⟩

theorem feed_not_mem_decodeFrom {state : Option Pending} (wide : ∀ p ∈ state, p.Wide)
    {bytes : List UInt8} (content : lineFeed ∉ bytes) : '\n' ∉ decodeFrom state bytes :=
  ofByte_feed.not_mem_decodeFrom wide content

/-- Text behind a line feed is decoded on its own. -/
theorem decodeFrom_append_feed {state : Option Pending} (wide : ∀ p ∈ state, p.Wide)
    (bytes rest : List UInt8) :
    decodeFrom state (bytes ++ lineFeed :: rest) =
      decodeFrom state (bytes ++ [lineFeed]) ++ decodeFrom none rest := by
  induction bytes generalizing state with
  | nil =>
    obtain ⟨broken, stepped, -⟩ := step_feed wide
    simp [decodeFrom, stepped]
  | cons b bytes ih =>
    simp only [List.cons_append, decodeFrom, List.append_assoc]
    rw [ih (step_wide wide b)]

/-- A line is decoded to text that has its only line feed at the end. -/
theorem decodeFrom_line {state : Option Pending} (wide : ∀ p ∈ state, p.Wide)
    {bytes : List UInt8} (content : lineFeed ∉ bytes) :
    ∃ text, decodeFrom state (bytes ++ [lineFeed]) = text ++ ['\n'] ∧ '\n' ∉ text := by
  induction bytes generalizing state with
  | nil =>
    obtain ⟨broken, stepped, absent⟩ := step_feed wide
    exact ⟨broken, by simp [decodeFrom, stepped], absent⟩
  | cons b bytes ih =>
    rw [List.mem_cons, not_or] at content
    obtain ⟨text, decoded, absent⟩ := ih (step_wide wide b) content.2
    refine ⟨(step state b).1 ++ text, ?_, ?_⟩
    · rw [List.cons_append, decodeFrom, decoded, List.append_assoc]
    · rw [List.mem_append, not_or]
      exact ⟨ofByte_feed.not_mem_step wide (Ne.symm content.1), absent⟩

/-- Nothing that was begun is lost. -/
theorem decodeFrom_pending_ne_nil (p : Pending) (bytes : List UInt8) :
    decodeFrom (some p) bytes ≠ [] := by
  induction bytes generalizing p with
  | nil => simp [decodeFrom]
  | cons b rest ih =>
    simp only [decodeFrom, step]
    split
    · split
      · simp
      · simpa using ih _
    · simp

theorem decodeFrom_ne_nil {bytes : List UInt8} (nonempty : bytes ≠ []) :
    decodeFrom none bytes ≠ [] := by
  cases bytes with
  | nil => contradiction
  | cons b rest =>
    have started := starts_start b
    rw [decodeFrom, step]
    generalize start b = result at *
    cases started with
    | single | broken => simp
    | begun => exact decodeFrom_pending_ne_nil _ rest

end Marginalia.Utf8
