import Marginalia.Text.Case

/-!
# Texts in small letters

A text in small letters has no capital left: the small letters of the table are none of its
capitals, and the marks and letters that stand for the two odd capitals are none either.  So a
text in small letters stays as it is when it is put in small letters again.
-/

namespace Marginalia.Text

/-- Whether a run of the table has a code point as a capital. -/
def IsCapitalOf (n : Nat) (run : Nat × Nat × Nat × Int) : Prop :=
  run.1 ≤ n ∧ n ≤ run.2.1 ∧ (n - run.1) % run.2.2.1 = 0

instance (n : Nat) (run : Nat × Nat × Nat × Int) : Decidable (IsCapitalOf n run) :=
  inferInstanceAs (Decidable (_ ∧ _ ∧ _))

/-- Whether a character is neither in the table of capitals nor the dotted one, which is not
there. -/
def IsSmall (c : Char) : Prop := c ≠ dottedI ∧ ∀ run ∈ capitalRuns, ¬ IsCapitalOf c.toNat run

instance (c : Char) : Decidable (IsSmall c) :=
  decidable_of_iff (c ≠ dottedI ∧ capitalRuns.all (¬ IsCapitalOf c.toNat ·) = true)
    (by simp [IsSmall])

/-- The small letter of a capital of a run, as a code point. -/
def smallOf (n : Nat) (run : Nat × Nat × Nat × Int) : Nat := ((n : Int) + run.2.2.2).toNat

/-- Whether the small letters of a run are code points of characters. -/
def hasCharacters (run : Nat × Nat × Nat × Int) : Bool :=
  let first := smallOf run.1 run
  let last := smallOf run.2.1 run
  (Nat.blt 0 first && Nat.blt last 0xD800) || (Nat.blt 0xDFFF first && Nat.blt last 0x110000)

/-- Whether the small letters of one run are no capitals of another: they lie on one side of them,
or both go by twos and never meet. -/
def missesCapitals (run other : Nat × Nat × Nat × Int) : Bool :=
  let first := smallOf run.1 run
  let last := smallOf run.2.1 run
  Nat.blt last other.1 || Nat.blt other.2.1 first ||
    ((Nat.beq run.2.2.1 2 || Nat.beq first last) && Nat.beq other.2.2.1 2 &&
      Nat.beq ((first + other.1) % 2) 1)

/-- The dotted capital I as a run of its own. -/
def dottedRun : Nat × Nat × Nat × Int := (0x130, 0x130, 1, 0)

theorem capitalRuns_checked :
    (capitalRuns.all fun run =>
      hasCharacters run && (dottedRun :: capitalRuns).all (missesCapitals run)) = true := by
  decide +kernel

theorem smallOf_isValidChar {n : Nat} {run : Nat × Nat × Nat × Int} (valid : hasCharacters run)
    (capital : IsCapitalOf n run) : (smallOf n run).isValidChar := by
  obtain ⟨from_first, to_last, -⟩ := capital
  simp only [hasCharacters, smallOf, Bool.or_eq_true, Bool.and_eq_true, Nat.blt_eq] at valid
  simp only [smallOf, Nat.isValidChar]
  omega

theorem not_isCapitalOf_smallOf {n : Nat} {run other : Nat × Nat × Nat × Int}
    (valid : hasCharacters run) (misses : missesCapitals run other) (capital : IsCapitalOf n run) :
    ¬ IsCapitalOf (smallOf n run) other := by
  obtain ⟨from_first, to_last, in_step⟩ := capital
  rintro ⟨from_first', to_last', in_step'⟩
  simp only [hasCharacters, smallOf, Bool.or_eq_true, Bool.and_eq_true, Nat.blt_eq] at valid
  simp only [missesCapitals, smallOf, Bool.or_eq_true, Bool.and_eq_true, Nat.blt_eq,
    Nat.beq_eq] at misses
  simp only [smallOf] at from_first' to_last' in_step'
  obtain (before | behind) | ⟨⟨by_twos | single, other_by_twos⟩, odd⟩ := misses
  · omega
  · omega
  · rw [by_twos] at in_step
    rw [other_by_twos] at in_step'
    omega
  · rw [other_by_twos] at in_step'
    omega

theorem lowerChar_eq (c : Char) :
    (∃ run ∈ capitalRuns, IsCapitalOf c.toNat run ∧
      lowerChar c = Char.ofNat (smallOf c.toNat run)) ∨
    ((∀ run ∈ capitalRuns, ¬ IsCapitalOf c.toNat run) ∧ lowerChar c = c) := by
  simp only [lowerChar]
  split
  · rename_i first last step distance found
    refine .inl ⟨_, List.mem_of_find?_eq_some found, ?_, rfl⟩
    simpa [IsCapitalOf] using List.find?_some found
  · rename_i absent
    refine .inr ⟨fun run member capital => ?_, rfl⟩
    have other := List.find?_eq_none.mp absent run member
    exact other (by simpa [IsCapitalOf] using capital)

/-- The small letter of a character is small. -/
theorem isSmall_lowerChar {c : Char} (undotted : c ≠ dottedI) : IsSmall (lowerChar c) := by
  obtain ⟨run, member, capital, eq⟩ | ⟨small, eq⟩ := lowerChar_eq c
  · have checked := List.all_eq_true.mp capitalRuns_checked run member
    rw [Bool.and_eq_true, List.all_eq_true] at checked
    obtain ⟨valid, misses⟩ := checked
    have code : (lowerChar c).toNat = smallOf c.toNat run := by
      rw [eq, Char.ofNat, dif_pos (smallOf_isValidChar valid capital)]
      rfl
    refine ⟨fun dotted => ?_, fun other othermember => ?_⟩
    · apply not_isCapitalOf_smallOf valid (misses dottedRun (List.mem_cons_self ..)) capital
      rw [← code, dotted]
      decide
    · rw [code]
      exact not_isCapitalOf_smallOf valid (misses other (List.mem_cons_of_mem _ othermember))
        capital
  · rw [eq]
    exact ⟨undotted, small⟩

theorem IsSmall.lowerChar_eq_self {c : Char} (small : IsSmall c) : lowerChar c = c := by
  obtain ⟨run, member, capital, -⟩ | ⟨-, eq⟩ := lowerChar_eq c
  · exact absurd capital (small.2 run member)
  · exact eq

theorem not_isSmall_sigma : ¬ IsSmall sigma := by decide +kernel

/-- All characters of a text in small letters are small. -/
theorem isSmall_of_mem_lowerFrom {inWord : Bool} {cs : List Char} {c : Char}
    (member : c ∈ lowerFrom inWord cs) : IsSmall c := by
  induction cs generalizing inWord with
  | nil => cases member
  | cons first rest ih =>
    rw [lowerFrom, List.mem_append] at member
    obtain front | behind := member
    · split at front
      · have : IsSmall 'ς' ∧ IsSmall 'σ' := by decide +kernel
        rw [List.mem_singleton] at front
        subst front
        split
        · exact this.1
        · exact this.2
      · split at front
        · have marked : IsSmall 'i' ∧ IsSmall '\u0307' := by decide +kernel
          simp only [List.mem_cons, List.not_mem_nil, or_false] at front
          rcases front with rfl | rfl
          · exact marked.1
          · exact marked.2
        · rename_i undotted
          rw [List.mem_singleton] at front
          subst front
          exact isSmall_lowerChar undotted
    · exact ih behind

/-- Small characters stay as they are, in a word or not. -/
theorem lowerFrom_of_small {inWord : Bool} {cs : List Char} (small : ∀ c ∈ cs, IsSmall c) :
    lowerFrom inWord cs = cs := by
  induction cs generalizing inWord with
  | nil => rfl
  | cons first rest ih =>
    have head := small first (List.mem_cons_self ..)
    have not_sigma : first ≠ sigma := fun eq => not_isSmall_sigma (eq ▸ head)
    rw [lowerFrom, if_neg not_sigma, if_neg head.1, head.lowerChar_eq_self,
      ih fun c member => small c (List.mem_cons_of_mem _ member)]
    rfl

/-- A text in small letters stays as it is when it is put in small letters. -/
theorem lower_lower (cs : List Char) : lower (lower cs) = lower cs :=
  lowerFrom_of_small fun _ member => isSmall_of_mem_lowerFrom member

theorem lower_eq_nil_iff {cs : List Char} : lower cs = [] ↔ cs = [] := by
  cases cs with
  | nil => exact iff_of_true rfl rfl
  | cons first rest =>
    refine iff_of_false ?_ (List.cons_ne_nil first rest)
    rw [lower, lowerFrom]
    split
    · exact List.cons_ne_nil _ _
    · split <;> exact List.cons_ne_nil _ _

end Marginalia.Text
