import Spreadsheet.Proofs.Decimal.Arithmetic

namespace Spreadsheet

namespace Double

open Float.Model Float.Model.UnpackedFloat

variable {m n : Nat} {s : Sign} {q size : ℚ} {x : Float}

theorem rounds_round (positive : 0 < m) (e : Int) :
    Rounds (s == .negative) (m * 2 ^ e)
      (.ofModel (Float.Model.pack (UnpackedFloat.round Format.binary64 s m e))) := by
  unfold UnpackedFloat.round decreaseExponent
  dsimp only
  rw [targetExponent_eq, Nat.shiftLeft_eq]
  generalize shift : (e - max (totalExponent m e - 53) (-1074)).toNat = k
  have exact : Describes (m * 2 ^ k) .exact ((m * 2 ^ e : ℚ) / 2 ^ (e - k)) := by
    have unit : (2 : ℚ) ^ e ≠ 0 := zpow_ne_zero _ two_ne_zero
    rw [Describes, zpow_sub₀ two_ne_zero, zpow_natCast]
    push_cast
    field_simp
  refine rounds_roundWithAccuracy exact ?_
  have digits : m.log2 + k ≤ (m * 2 ^ k).log2 := by
    rw [Nat.le_log2 (Nat.mul_pos positive (Nat.two_pow_pos k)).ne', Nat.pow_add]
    exact Nat.mul_le_mul_right _ (Nat.log2_self_le positive.ne')
  rw [targetExponent_eq]
  unfold totalExponent at shift ⊢
  omega

theorem rounds_normalize (n : Nat) (e : Int) :
    Rounds false (n * 2 ^ e)
      (.ofModel (Float.Model.pack (UnpackedFloat.normalize Format.binary64 n e .positive))) := by
  unfold UnpackedFloat.normalize
  split
  · rename_i negative
    rw [Int.compare_eq_lt] at negative
    omega
  · rename_i zero
    rw [Int.compare_eq_eq] at zero
    obtain rfl : n = 0 := by omega
    rw [Nat.cast_zero, zero_mul]
    exact rounds_zero (s := .positive) le_rfl (by positivity)
  · rename_i some
    rw [Int.compare_eq_gt] at some
    rw [Int.toNat_natCast]
    exact rounds_round (s := .positive) (by omega) e

theorem rounds_ofNat (n : Nat) :
    Rounds false n (.ofModel (Float.Model.pack (UnpackedFloat.ofNat Format.binary64 n))) := by
  have rounds := rounds_normalize n 0
  rwa [zpow_zero, mul_one] at rounds

theorem mul_ten_pow_le {n : Nat} (digits : m.log2 + 1076 ≤ n) :
    (m * 10 ^ (-(n : ℤ)) : ℚ) ≤ 2 ^ (-1075 : ℤ) := by
  have bits : (m : ℚ) ≤ 2 ^ (m.log2 + 1) := by exact_mod_cast (Nat.lt_log2_self (n := m)).le
  have power : (2 : ℚ) ^ n ≤ 10 ^ n := pow_le_pow_left₀ (by norm_num) (by norm_num) n
  rw [zpow_neg, zpow_natCast, ← div_eq_mul_inv, div_le_iff₀ (by positivity)]
  calc (m : ℚ) ≤ 2 ^ (m.log2 + 1) := bits
    _ ≤ 2 ^ ((-1075 : ℤ) + n) := by
        rw [← zpow_natCast]
        exact zpow_le_zpow_right₀ (by norm_num) (by push_cast; omega)
    _ = 2 ^ (-1075 : ℤ) * 2 ^ n := by rw [zpow_add₀ two_ne_zero, zpow_natCast]
    _ ≤ 2 ^ (-1075 : ℤ) * 10 ^ n := mul_le_mul_of_nonneg_left power (by positivity)

theorem limit_le_mul_ten_pow (some : m ≠ 0) (large : 1024 ≤ n) : limit ≤ m * 10 ^ (n : ℤ) := by
  have least : (1 : ℚ) ≤ m := by exact_mod_cast Nat.pos_of_ne_zero some
  rw [zpow_natCast]
  calc limit ≤ 2 ^ n := limit_le_two_pow large
    _ ≤ 10 ^ n := pow_le_pow_left₀ (by norm_num) (by norm_num) n
    _ ≤ m * 10 ^ n := le_mul_of_one_le_left (by positivity) least

theorem rounds_model_ofScientific (m : Nat) (e : Int) :
    Rounds false (m * 10 ^ e) (.ofModel (Float.Model.ofScientific m e)) := by
  have top : (2 : Int) ^ Format.binary64.exponentBits = 2048 := rfl
  unfold Float.Model.ofScientific UnpackedFloat.ofScientific
  split_ifs with zero large small natural
  · rw [zero, Nat.cast_zero, zero_mul]
    exact rounds_zero (s := .positive) le_rfl (by positivity)
  · obtain ⟨n, rfl⟩ := Int.eq_ofNat_of_zero_le (show 0 ≤ e by omega)
    exact rounds_of_limit_le (limit_le_mul_ten_pow zero (by omega)) (by decide)
  · obtain ⟨n, rfl⟩ := Int.exists_eq_neg_ofNat (show e ≤ 0 by omega)
    exact rounds_zero (s := .positive) (by positivity) (mul_ten_pow_le (by omega))
  · obtain ⟨n, rfl⟩ := Int.eq_ofNat_of_zero_le natural
    have size : (m * 10 ^ (n : ℤ) : ℚ) =
        (m <<< Format.binary64.mantissaBits : Nat) * 2 ^ (-Format.binary64.mantissaBits : ℤ) *
          ((10 ^ (n : ℤ).toNat : Nat) * 2 ^ (0 : ℤ)) := by
      have unit : (2 : ℚ) ^ Format.binary64.mantissaBits ≠ 0 := pow_ne_zero _ two_ne_zero
      rw [Nat.shiftLeft_eq, Int.toNat_natCast, zpow_neg, zpow_natCast, zpow_natCast, zpow_zero]
      push_cast
      field_simp
    rw [size]
    change Rounds (Sign.positive * Sign.positive == .negative) _ _
    refine rounds_mul_finite (.inl ?_)
    rw [Nat.shiftLeft_eq, Nat.mul_assoc, Nat.mul_left_comm]
    exact Nat.le_trans (by decide) (Nat.le_mul_of_pos_right _
      (Nat.mul_pos (Nat.pos_of_ne_zero zero) (Nat.pow_pos (by decide))))
  · obtain ⟨n, rfl⟩ := Int.exists_eq_neg_ofNat (show e ≤ 0 by omega)
    have size : (m * 10 ^ (-(n : ℤ)) : ℚ) =
        m * 2 ^ (0 : ℤ) / ((10 ^ (-(-(n : ℤ))).toNat : Nat) * 2 ^ (0 : ℤ)) := by
      rw [neg_neg, Int.toNat_natCast, zpow_neg, zpow_natCast, zpow_zero, mul_one, mul_one,
        div_eq_mul_inv, Nat.cast_pow, Nat.cast_ofNat]
    rw [size]
    change Rounds (Sign.positive / Sign.positive == .negative) _ _
    exact rounds_div_finite

theorem Rounds.size_eq (h : Rounds false size x) (grid : Representable size) :
    x.isFinite = true ∧ (Dyadic.ofFloat x).negative = false ∧ (Dyadic.ofFloat x).size = size := by
  obtain ⟨near, sign⟩ := h.nearest ((le_abs_self size).trans_lt grid.abs_lt_limit)
  have value := near.value_eq (grid.signFactor_mul false)
  rw [Dyadic.value, sign] at value
  have one (q : ℚ) : signFactor false * q = q := one_mul q
  rw [one, one] at value
  exact ⟨near.finite, sign, value⟩

theorem representable_natCast (bits : n < 2 ^ 53) : Representable n := by
  refine ⟨n, 0, ?_, by decide, by decide, by simp⟩
  rw [Nat.abs_cast]
  exact_mod_cast bits

theorem fields_toFloat_toUInt64 (bits : n < 2 ^ 53) :
    n.toUInt64.toFloat.isFinite = true ∧ (Dyadic.ofFloat n.toUInt64.toFloat).negative = false ∧
      (Dyadic.ofFloat n.toUInt64.toFloat).size = n := by
  have word : n.toUInt64.toNat = n := by
    rw [Nat.toUInt64_eq, UInt64.toNat_ofNat']
    omega
  have rounds : Rounds false n.toUInt64.toNat n.toUInt64.toFloat := rounds_ofNat n.toUInt64.toNat
  rw [word] at rounds
  exact rounds.size_eq (representable_natCast bits)

theorem fields_powersOfTen (small : n < Float.exactlyRepresentablePowersOfTen.size) :
    let x := Float.exactlyRepresentablePowersOfTen[n]
    x.isFinite = true ∧ (Dyadic.ofFloat x).negative = false ∧ (Dyadic.ofFloat x).size = 10 ^ n := by
  have table : ∀ (n : Nat) (small : n < Float.exactlyRepresentablePowersOfTen.size),
      let x := Float.exactlyRepresentablePowersOfTen[n]
      x.isFinite = true ∧ (Dyadic.ofFloat x).negative = false ∧
        (Dyadic.ofFloat x).numerator = 10 ^ n * (Dyadic.ofFloat x).denominator := by
    decide +kernel
  obtain ⟨finite, sign, size⟩ := table n small
  refine ⟨finite, sign, ?_⟩
  rw [Dyadic.size, ← Dyadic.numerator_div_denominator, size]
  push_cast
  exact mul_div_cancel_right₀ _ (Nat.cast_ne_zero.mpr (Dyadic.denominator_pos _).ne')

theorem rounds_ofScientific (m n : Nat) (down : Bool) :
    Rounds false (m * 10 ^ (if down then -(n : ℤ) else n)) (Float.ofScientific m down n) := by
  unfold Float.ofScientific
  by_cases short : m < 2 ^ 53 ∧ n ≤ 22
  · rw [dif_pos short]
    have inside : n < Float.exactlyRepresentablePowersOfTen.size := Nat.lt_succ_of_le short.2
    obtain ⟨finite, sign, size⟩ := fields_toFloat_toUInt64 short.1
    obtain ⟨finite', sign', size'⟩ := fields_powersOfTen inside
    cases down with
    | false =>
      have rounds := rounds_mul finite finite'
      rwa [sign, sign', size, size'] at rounds
    | true =>
      have some : (10 : ℚ) ^ n ≠ 0 := pow_ne_zero n (by norm_num)
      have rounds := rounds_div finite finite' (size' ▸ some)
      rw [sign, sign', size, size'] at rounds
      rwa [if_pos rfl, zpow_neg, zpow_natCast, ← div_eq_mul_inv]
  · rw [dif_neg short]
    cases down with
    | false => exact rounds_model_ofScientific m n
    | true =>
      dsimp only
      rw [if_pos rfl, if_pos rfl, Int.negOfNat_eq]
      exact rounds_model_ofScientific m (-n)

theorem isNearest_hundredth (finite : x.isFinite = true) :
    IsNearest ((Dyadic.ofFloat x).value / 100) (x / 100.0) ∧
      (Dyadic.ofFloat (x / 100.0)).negative = (Dyadic.ofFloat x).negative := by
  have fields : Dyadic.ofFloat 100.0 = ⟨false, 100 * 2 ^ 46, -46⟩ := by decide
  have hundred : (Dyadic.ofFloat 100.0).size = 100 := by
    rw [fields]
    norm_num [Dyadic.size]
  have rounds := rounds_div finite (by decide : (100.0 : Float).isFinite = true)
    (by rw [hundred]; norm_num)
  have small := (representable_value finite).abs_lt_limit
  rw [Dyadic.abs_value] at small
  rw [hundred, fields, Bool.bne_false] at rounds
  rw [Dyadic.value_eq_mul_size, mul_div_assoc]
  exact rounds.nearest
    ((div_le_self (Dyadic.size_nonneg _) (by norm_num)).trans_lt small)

theorem isFinite_percent (finite : x.isFinite = true) : (x / 100.0).isFinite = true :=
  (isNearest_hundredth finite).1.finite

theorem rounds_natCast (n : Nat) : Rounds false n (Float.ofNat n) := by
  have rounds : Rounds false (n * 10 ^ (0 : ℤ)) (Float.ofNat n) := rounds_ofScientific n 0 false
  rwa [zpow_zero, mul_one] at rounds

theorem isFinite_ofNat (bits : n < 2 ^ 1023) : (Float.ofNat n).isFinite = true := by
  have small : (n : ℚ) < limit := by
    refine lt_of_lt_of_le ?_ two_pow_le_limit
    exact_mod_cast bits
  exact ((rounds_natCast n).nearest small).1.finite

end Double

namespace Numeral

open Double

variable {c : Nat} {exponent : Int}

theorem lt_pow_digitCount (c : Nat) : c < 10 ^ digitCount c := by
  have some : 0 < digitCount c := List.length_pos_iff.mpr Nat.toDigits_ne_nil
  exact (Nat.length_toDigits_le_iff (by decide) some).mp le_rfl

theorem pow_digitCount_le (some : c ≠ 0) : 10 ^ (digitCount c - 1) ≤ c := by
  by_contra less
  by_cases one : digitCount c - 1 = 0
  · rw [one] at less
    omega
  · have short := (Nat.length_toDigits_le_iff (by decide) (Nat.pos_of_ne_zero one)).mpr
      (not_le.mp less)
    have count : digitCount c ≤ digitCount c - 1 := short
    omega

theorem limit_le_of_digitCount (some : c ≠ 0) (long : 310 < digitCount c + exponent) :
    limit ≤ c * 10 ^ exponent := by
  have power : (2 : ℚ) ^ 1024 ≤ 10 ^ 310 := by
    have whole : 2 ^ 1024 ≤ 10 ^ 310 := by decide +kernel
    exact_mod_cast whole
  have digits : (10 : ℚ) ^ (digitCount c - 1) ≤ c := by exact_mod_cast pow_digitCount_le some
  calc limit ≤ 2 ^ 1024 := limit_le_two_pow le_rfl
    _ ≤ 10 ^ 310 := power
    _ ≤ 10 ^ ((digitCount c - 1 : Nat) + exponent) := by
        rw [← zpow_natCast]
        exact zpow_le_zpow_right₀ (by norm_num) (by push_cast; omega)
    _ = 10 ^ (digitCount c - 1) * 10 ^ exponent := by
        rw [zpow_add₀ (by norm_num), zpow_natCast]
    _ ≤ c * 10 ^ exponent := mul_le_mul_of_nonneg_right digits (by positivity)

theorem mul_le_of_digitCount (short : digitCount c + exponent < -330) :
    (c * 10 ^ exponent : ℚ) ≤ 2 ^ (-1075 : ℤ) := by
  have power : (2 : ℚ) ^ 1075 ≤ 10 ^ 331 := by
    have whole : 2 ^ 1075 ≤ 10 ^ 331 := by decide +kernel
    exact_mod_cast whole
  have digits : (c : ℚ) ≤ 10 ^ digitCount c := by exact_mod_cast (lt_pow_digitCount c).le
  calc (c * 10 ^ exponent : ℚ) ≤ 10 ^ digitCount c * 10 ^ exponent :=
        mul_le_mul_of_nonneg_right digits (by positivity)
    _ = 10 ^ (digitCount c + exponent) := by rw [zpow_add₀ (by norm_num), zpow_natCast]
    _ ≤ 10 ^ (-(331 : Nat) : ℤ) := zpow_le_zpow_right₀ (by norm_num) (by push_cast; omega)
    _ = (10 ^ 331)⁻¹ := by rw [zpow_neg, zpow_natCast]
    _ ≤ (2 ^ 1075)⁻¹ := inv_anti₀ (pow_pos (by norm_num) _) power
    _ = 2 ^ (-(1075 : Nat) : ℤ) := by rw [zpow_neg, zpow_natCast]

theorem rounds_toFloat (n : Numeral) :
    Rounds n.negative (n.coefficient * 10 ^ n.exponent) n.toFloat := by
  obtain ⟨negative, c, exponent⟩ := n
  unfold toFloat
  dsimp only
  generalize written : (if c = 0 then (0.0 : Float) else _) = magnitude
  have rounds : Rounds false (c * 10 ^ exponent) magnitude := by
    rw [← written]
    split_ifs with zero long short small
    · rw [zero, Nat.cast_zero, zero_mul]
      exact rounds_zero (s := .positive) le_rfl (by positivity)
    · exact rounds_of_limit_le (limit_le_of_digitCount zero long) (by decide)
    · exact rounds_zero (s := .positive) (by positivity) (mul_le_of_digitCount short)
    · have rounds := rounds_ofScientific c (-exponent).toNat true
      rwa [if_pos rfl, Int.toNat_of_nonneg (by omega), neg_neg] at rounds
    · have rounds := rounds_ofScientific c exponent.toNat false
      rwa [if_neg (by decide), Int.toNat_of_nonneg (by omega)] at rounds
  cases negative with
  | false => exact rounds
  | true => exact rounds.neg

end Numeral

end Spreadsheet
