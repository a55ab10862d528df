import Spreadsheet.Proofs.Decimal.Rounding

namespace Spreadsheet.Double

variable {q size : ℚ} {n : Nat} {x : Float} {negative : Bool}

/-- Numbers of at most 53 binary digits with an exponent of the format. -/
def Representable (q : ℚ) : Prop :=
  ∃ k e : ℤ, |k| < 2 ^ 53 ∧ -1074 ≤ e ∧ e ≤ 971 ∧ q = k * 2 ^ e

/-- A finite double nearest to a number; of two as near, the one with the even mantissa. -/
structure IsNearest (q : ℚ) (x : Float) : Prop where
  finite : x.isFinite = true
  nearest : ∀ y, Representable y → |q - (Dyadic.ofFloat x).value| ≤ |q - y|
  even : ∀ y, Representable y → |q - y| = |q - (Dyadic.ofFloat x).value| →
    y ≠ (Dyadic.ofFloat x).value → (Dyadic.ofFloat x).mantissa % 2 = 0

/-- Halfway from the greatest finite double to the next power of two. -/
def limit : ℚ := 2 ^ 1024 - 2 ^ 970

theorem limit_eq : limit = (2 ^ 53 - 1 / 2) * 2 ^ (971 : ℤ) := by
  have whole : (2 : ℚ) ^ 1024 = 2 ^ 53 * 2 ^ 971 := pow_add 2 53 971
  have half : (2 : ℚ) ^ 971 = 2 ^ 970 * 2 := pow_succ 2 970
  rw [limit, whole, show (2 : ℚ) ^ (971 : ℤ) = 2 ^ 971 from rfl, half]
  generalize (2 : ℚ) ^ 970 = u
  ring

theorem limit_le_two_pow (large : 1024 ≤ n) : limit ≤ 2 ^ n := by
  have whole : (2 : ℚ) ^ 1024 ≤ 2 ^ n := pow_le_pow_right₀ (by norm_num) large
  have positive : (0 : ℚ) < 2 ^ 970 := pow_pos (by norm_num) _
  exact (sub_le_self _ positive.le).trans whole

theorem two_pow_le_limit : 2 ^ 1023 ≤ limit := by
  have whole : (2 : ℚ) ^ 1024 = 2 ^ 1023 * 2 := pow_succ 2 1023
  have half : (2 : ℚ) ^ 970 ≤ 2 ^ 1023 := pow_le_pow_right₀ (by norm_num) (by norm_num)
  rw [limit, whole]
  generalize (2 : ℚ) ^ 1023 = u at half ⊢
  generalize (2 : ℚ) ^ 970 = v at half ⊢
  linarith

/-- What rounding makes of a number with a sign and a magnitude: the nearest double with that sign,
    and no finite one from the limit up. -/
structure Rounds (negative : Bool) (size : ℚ) (x : Float) : Prop where
  nearest : size < limit →
    IsNearest (signFactor negative * size) x ∧ (Dyadic.ofFloat x).negative = negative
  overflow : limit ≤ size → x.isFinite = false

theorem Representable.neg (h : Representable q) : Representable (-q) := by
  obtain ⟨k, e, bits, least, most, rfl⟩ := h
  exact ⟨-k, e, by rwa [abs_neg], least, most, by push_cast; ring⟩

theorem Representable.signFactor_mul (h : Representable q) (negative : Bool) :
    Representable (signFactor negative * q) := by
  cases negative with
  | false => rwa [signFactor, if_neg Bool.false_ne_true, one_mul]
  | true => rw [signFactor, if_pos rfl, neg_one_mul]; exact h.neg

theorem representable_value (finite : x.isFinite = true) :
    Representable (Dyadic.ofFloat x).value := by
  obtain ⟨mantissa, exponent⟩ := Dyadic.bounds_ofFloat finite
  refine Representable.signFactor_mul ⟨(Dyadic.ofFloat x).mantissa, _, ?_,
    Dyadic.least_le_exponent x, exponent, rfl⟩ _
  rw [Nat.abs_cast]
  exact_mod_cast mantissa

theorem signFactor_mul_signFactor (negative : Bool) :
    signFactor negative * signFactor negative = 1 := by cases negative <;> norm_num [signFactor]

theorem abs_signFactor (negative : Bool) : |signFactor negative| = 1 := by
  cases negative <;> norm_num [signFactor]

theorem abs_signFactor_mul_sub (negative : Bool) (p q : ℚ) :
    |signFactor negative * p - q| = |p - signFactor negative * q| := by
  have factor : signFactor negative * p - q = signFactor negative * (p - signFactor negative * q) := by
    linear_combination q * signFactor_mul_signFactor negative
  rw [factor, abs_mul, abs_signFactor, one_mul]

theorem Representable.abs_lt_limit (h : Representable q) : |q| < limit := by
  obtain ⟨k, e, bits, -, most, rfl⟩ := h
  have unit : (2 : ℚ) ^ e ≤ 2 ^ (971 : ℤ) := zpow_le_zpow_right₀ (by norm_num) most
  have positive : (0 : ℚ) < 2 ^ e := zpow_pos (by norm_num) _
  have positive' : (0 : ℚ) < 2 ^ (971 : ℤ) := zpow_pos (by norm_num) _
  have digits : |(k : ℚ)| ≤ 2 ^ 53 - 1 := by
    have whole : |k| ≤ 2 ^ 53 - 1 := by omega
    exact_mod_cast whole
  rw [abs_mul, abs_of_pos positive, limit_eq]
  calc |(k : ℚ)| * 2 ^ e ≤ (2 ^ 53 - 1) * 2 ^ e := mul_le_mul_of_nonneg_right digits positive.le
    _ ≤ (2 ^ 53 - 1) * 2 ^ (971 : ℤ) := mul_le_mul_of_nonneg_left unit (by norm_num)
    _ < (2 ^ 53 - 1 / 2) * 2 ^ (971 : ℤ) := mul_lt_mul_of_pos_right (by norm_num) positive'

theorem Representable.abs_lt_of_odd {n : ℤ} (h : Representable n) (odd : n % 2 = 1) :
    |n| < 2 ^ 53 := by
  obtain ⟨k, e, bits, -, -, same⟩ := h
  rcases le_or_gt e 0 with fraction | whole
  · have positive : (0 : ℚ) < 2 ^ e := zpow_pos two_pos e
    have unit : (2 : ℚ) ^ e ≤ 1 := zpow_le_one_of_nonpos₀ one_le_two fraction
    have size : |(n : ℚ)| ≤ |(k : ℚ)| := by
      rw [same, abs_mul, abs_of_pos positive]
      exact mul_le_of_le_one_right (abs_nonneg _) unit
    have le : |n| ≤ |k| := by exact_mod_cast size
    exact le.trans_lt bits
  · -- A last place above the units makes the number even.
    obtain ⟨m, shift⟩ := Int.eq_ofNat_of_zero_le (show 0 ≤ e - 1 by omega)
    obtain rfl : e = (m + 1 : ℕ) := by push_cast; omega
    have even : n = k * 2 ^ (m + 1) := by exact_mod_cast same
    rw [even, pow_succ, ← mul_assoc, Int.mul_emod_left] at odd
    cases odd

theorem rounds_of_limit_le (large : limit ≤ size) (infinite : x.isFinite = false) :
    Rounds negative size x :=
  ⟨fun less => absurd large (not_le.mpr less), fun _ => infinite⟩

theorem IsNearest.value_eq (h : IsNearest q x) (grid : Representable q) :
    (Dyadic.ofFloat x).value = q := by
  have zero := h.nearest q grid
  rw [sub_self, abs_zero, abs_nonpos_iff, sub_eq_zero] at zero
  exact zero.symm

end Spreadsheet.Double
