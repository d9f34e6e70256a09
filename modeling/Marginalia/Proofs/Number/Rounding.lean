import Mathlib.Algebra.Order.Ring.Nat
import Mathlib.Data.Rat.Defs
import Marginalia.Number.Basic

/-!
# Natural numbers on the grid

A natural number is taken to the grid by keeping the first 53 of its binary digits.  What is kept is
a natural number again, so a natural number never becomes a fraction; it becomes infinite if it lies
at least half way between the largest point of the grid and the power of two where the grid ends.
-/

namespace Marginalia.Number

/-! ## Quotients to the nearest integer -/

theorem div_le_divideToEven (n d : Nat) : n / d ≤ divideToEven n d := by
  unfold divideToEven
  dsimp only
  split
  · exact Nat.le_refl _
  · split <;> omega

theorem divideToEven_le_succ (n d : Nat) : divideToEven n d ≤ n / d + 1 := by
  unfold divideToEven
  dsimp only
  split
  · omega
  · split <;> omega

theorem divideToEven_one (n : Nat) : divideToEven n 1 = n := by
  simp [divideToEven, Nat.mod_one]

/-- An even number is reached from half a unit below it on. -/
theorem even_le_divideToEven_iff {n d m : Nat} (positive : 0 < d) (even : m % 2 = 0) :
    m ≤ divideToEven n d ↔ 2 * (m * d) ≤ 2 * n + d := by
  have split_eq : n / d * d + n % d = n := Nat.div_add_mod' n d
  have rest_lt : n % d < d := Nat.mod_lt n positive
  have succ_eq : (n / d + 1) * d = n / d * d + d := Nat.succ_mul _ _
  rcases Nat.lt_trichotomy m (n / d + 1) with below | next | above
  · have products_le : m * d ≤ n / d * d := Nat.mul_le_mul_right d (by omega)
    have quotient_le := div_le_divideToEven n d
    constructor <;> intro <;> omega
  · have product_eq : m * d = n / d * d + d := by rw [next, succ_eq]
    -- the quotient is odd, so half way between the two it is the even number that is taken
    rw [product_eq]
    unfold divideToEven
    dsimp only
    split
    · constructor <;> intro <;> omega
    · split
      · constructor <;> intro <;> omega
      · constructor <;> intro <;> omega
  · have products_le : (n / d + 2) * d ≤ m * d := Nat.mul_le_mul_right d (by omega)
    have product_eq : (n / d + 2) * d = n / d * d + d + d := by
      rw [Nat.succ_mul, succ_eq]
    have le_quotient := divideToEven_le_succ n d
    constructor <;> intro <;> omega

/-! ## Natural numbers -/

/-- The weight of the last digit that is kept of a natural number. -/
def lastPlace (n : Nat) : Nat := Nat.pow 2 (n.log2 - (precision - 1))

/-- A natural number with no more digits than are kept, the nearest one. -/
def rounded (n : Nat) : Nat := divideToEven n (lastPlace n) * lastPlace n

/-- Natural numbers from here on are nearer to the end of the grid than to its largest point. -/
def endless : Nat := overflow - Nat.pow 2 970

/-- A number with few digits keeps them all. -/
theorem rounded_eq_self {n : Nat} (few : n.log2 ≤ precision - 1) : rounded n = n := by
  rw [rounded, lastPlace, Nat.sub_eq_zero_of_le few]
  exact (Nat.mul_one _).trans (divideToEven_one n)

theorem lt_twice_two_pow_log2 (n : Nat) : n < 2 * Nat.pow 2 n.log2 := by
  have lt := Nat.lt_log2_self (n := n)
  rwa [Nat.pow_succ'] at lt

theorem scale_natCast (base n d k : Nat) : scale base n d k = (n * Nat.pow base k, d) := by
  have none_down : (-(k : Int)).toNat = 0 := by omega
  simp [scale, none_down]

theorem scale_neg_natCast (base n d k : Nat) : scale base n d (-k) = (n, d * Nat.pow base k) := by
  have none_up : (-(k : Int)).toNat = 0 := by omega
  simp [scale, none_up]

theorem floorLog2_natCast {n : Nat} (positive : 0 < n) : floorLog2 n 1 = n.log2 := by
  have le_self : Nat.pow 2 n.log2 ≤ n := Nat.log2_self_le (Nat.ne_of_gt positive)
  have one_log2 : Nat.log2 1 = 0 := by decide
  have guess_eq : (n.log2 : Int) - Nat.log2 1 = n.log2 := by
    rw [one_log2]
    omega
  rw [floorLog2, guess_eq, scale_neg_natCast, Nat.one_mul]
  exact if_pos le_self

/-- Rounding a natural number gives the natural number nearest to it, or leaves the grid. -/
theorem ofNat_eq {n : Nat} (positive : 0 < n) :
    ofNat n = if overflow ≤ rounded n then infinity false else finite (rounded n) := by
  have num_eq : ((n : Int) : Rat).num = n := Rat.num_intCast n
  have den_eq : ((n : Int) : Rat).den = 1 := Rat.den_intCast n
  have sign : decide ((n : Int) < 0) = false := by simp
  rw [ofNat, ofInt, ofRat, num_eq, den_eq, if_neg (by omega), sign, Int.natAbs_natCast, nearest,
    floorLog2_natCast positive]
  by_cases few : n.log2 ≤ precision - 1
  · -- all digits are kept, behind a point that is moved there and back
    obtain ⟨k, k_eq⟩ := Nat.exists_eq_add_of_le few
    have exponent_eq : max leastExponent ((n.log2 : Int) - (precision - 1 : Nat)) = -(k : Int) := by
      simp only [leastExponent, precision] at k_eq ⊢
      omega
    have power_pos : 0 < Nat.pow 2 k := Nat.two_pow_pos k
    rw [exponent_eq, Int.neg_neg, scale_natCast]
    dsimp only
    rw [divideToEven_one, scale_neg_natCast, rounded_eq_self few]
    have whole_eq : mkRat ((n * Nat.pow 2 k : Nat) : Int) (Nat.pow 2 k) = n := by
      have cancelled := Rat.mkRat_mul_right (n := n) (d := 1) (Nat.ne_of_gt power_pos)
      rw [Nat.one_mul, Rat.mkRat_one] at cancelled
      rw [Int.natCast_mul]
      exact cancelled
    have beyond_iff : overflow * Nat.pow 2 k ≤ n * Nat.pow 2 k ↔ overflow ≤ n :=
      Nat.mul_le_mul_right_iff power_pos
    simp only [Nat.one_mul, beyond_iff, Bool.false_eq_true, if_false, whole_eq]
  · obtain ⟨k, k_eq⟩ := Nat.exists_eq_add_of_lt (Nat.lt_of_not_le few)
    have exponent_eq : max leastExponent ((n.log2 : Int) - (precision - 1 : Nat)) =
        ((k + 1 : Nat) : Int) := by
      simp only [leastExponent, precision] at k_eq ⊢
      omega
    have place_eq : lastPlace n = Nat.pow 2 (k + 1) := by
      rw [lastPlace, k_eq]
      congr 1
      omega
    rw [exponent_eq, scale_neg_natCast]
    dsimp only
    rw [Nat.one_mul, scale_natCast, ← place_eq]
    dsimp only
    rw [Nat.mul_one]
    simp only [Bool.false_eq_true, if_false, Rat.mkRat_one]
    rfl

theorem natural?_finite (n : Nat) : (finite n).natural? = some n := by
  simp [natural?, integer?]

/-- As many digits are kept as the number has, or 53 of them. -/
theorem lastPlace_bounds {n : Nat} (positive : 0 < n) :
    ∃ count : Nat, Nat.pow 2 n.log2 = Nat.pow 2 count * lastPlace n ∧
      Nat.pow 2 count ≤ n / lastPlace n ∧ n / lastPlace n < 2 * Nat.pow 2 count := by
  have place_pos : 0 < lastPlace n := Nat.two_pow_pos _
  have exponent_eq : n.log2 = n.log2 - (n.log2 - (precision - 1)) + (n.log2 - (precision - 1)) := by
    omega
  have power_eq : Nat.pow 2 n.log2 =
      Nat.pow 2 (n.log2 - (n.log2 - (precision - 1))) * lastPlace n := by
    conv_lhs => rw [exponent_eq]
    exact Nat.pow_add _ _ _
  refine ⟨n.log2 - (n.log2 - (precision - 1)), power_eq, ?_, ?_⟩
  · rw [Nat.le_div_iff_mul_le place_pos, ← power_eq]
    exact Nat.log2_self_le (Nat.ne_of_gt positive)
  · rw [Nat.div_lt_iff_lt_mul place_pos, Nat.mul_assoc, ← power_eq]
    exact lt_twice_two_pow_log2 n

/-- A rounded number has as many digits as before, or is the next power of two. -/
theorem rounded_bounds {n : Nat} (positive : 0 < n) :
    Nat.pow 2 n.log2 ≤ rounded n ∧ rounded n ≤ 2 * Nat.pow 2 n.log2 := by
  obtain ⟨count, power_eq, le_quotient, quotient_lt⟩ := lastPlace_bounds positive
  have above := div_le_divideToEven n (lastPlace n)
  have below := divideToEven_le_succ n (lastPlace n)
  rw [power_eq, ← Nat.mul_assoc, rounded]
  exact ⟨Nat.mul_le_mul_right _ (by omega), Nat.mul_le_mul_right _ (by omega)⟩

/-- A power of two is reached by rounding from half a unit of the digits below it on. -/
theorem two_pow_le_rounded_iff {n : Nat} (positive : 0 < n) (half : Nat) :
    Nat.pow 2 (half + (precision + 1)) ≤ rounded n ↔
      Nat.pow 2 (half + (precision + 1)) ≤ n + Nat.pow 2 half := by
  obtain ⟨power_le, le_power⟩ := rounded_bounds positive
  have le_self : Nat.pow 2 n.log2 ≤ n := Nat.log2_self_le (Nat.ne_of_gt positive)
  have lt_self := lt_twice_two_pow_log2 n
  have half_pos : 0 < Nat.pow 2 half := Nat.two_pow_pos half
  have end_eq : Nat.pow 2 (half + (precision + 1)) = 18014398509481984 * Nat.pow 2 half := by
    rw [Nat.mul_comm]
    exact Nat.pow_add 2 half _
  have last_eq : Nat.pow 2 (half + precision) = 9007199254740992 * Nat.pow 2 half := by
    rw [Nat.mul_comm]
    exact Nat.pow_add 2 half _
  rcases Nat.lt_trichotomy n.log2 (half + precision) with below | last | above
  · have twice_le : Nat.pow 2 (n.log2 + 1) ≤ Nat.pow 2 (half + precision) :=
      Nat.pow_le_pow_right (by decide) below
    have twice_eq : Nat.pow 2 (n.log2 + 1) = 2 * Nat.pow 2 n.log2 := Nat.pow_succ'
    constructor <;> intro <;> omega
  · have place_eq : lastPlace n = 2 * Nat.pow 2 half := by
      have exponent_eq : half + precision - (precision - 1) = half + 1 := by
        simp only [precision]
        omega
      rw [lastPlace, last, exponent_eq]
      exact Nat.pow_succ'
    have reached_iff := even_le_divideToEven_iff (n := n) (m := 9007199254740992)
      (d := lastPlace n) (by omega) (by decide)
    have product_eq : Nat.pow 2 (half + (precision + 1)) = 9007199254740992 * lastPlace n := by
      omega
    have rounded_iff : Nat.pow 2 (half + (precision + 1)) ≤ rounded n ↔
        9007199254740992 ≤ divideToEven n (lastPlace n) := by
      rw [product_eq, rounded]
      exact Nat.mul_le_mul_right_iff (by omega)
    rw [rounded_iff, reached_iff, ← product_eq, place_eq]
    constructor <;> intro <;> omega
  · have power_le' : Nat.pow 2 (half + (precision + 1)) ≤ Nat.pow 2 n.log2 :=
      Nat.pow_le_pow_right (by decide) above
    constructor <;> intro <;> omega

theorem overflow_le_rounded_iff {n : Nat} (positive : 0 < n) :
    overflow ≤ rounded n ↔ endless ≤ n := by
  -- the powers are too large to be written out
  obtain ⟨half, overflow_eq, endless_eq⟩ : ∃ half,
      overflow = Nat.pow 2 (half + (precision + 1)) ∧ endless + Nat.pow 2 half = overflow :=
    ⟨970, by decide +kernel, by decide +kernel⟩
  have reached_iff := two_pow_le_rounded_iff positive half
  omega

end Marginalia.Number
