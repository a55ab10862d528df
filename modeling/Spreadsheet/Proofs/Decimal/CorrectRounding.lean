import Spreadsheet.Proofs.Decimal.Nearest
import Spreadsheet.Proofs.Decimal.Packing
import Spreadsheet.Proofs.Decimal.Residue

namespace Spreadsheet.Double

open Float.Model Float.Model.UnpackedFloat

variable {size y : ℚ} {m r : Nat} {e t : Int} {s : Sign} {x : Float} {accuracy : Accuracy}

/-- In units of a power of two, a number of the format is an integer, or has no digit more than a
    mantissa without its last one. -/
theorem Representable.in_units (h : Representable y) (t : ℤ) :
    (∃ j : ℤ, y / 2 ^ t = j) ∨ (-1074 < t ∧ y / 2 ^ t < 2 ^ 52) := by
  obtain ⟨k, e, bits, least, -, rfl⟩ := h
  have ratio : (k : ℚ) * 2 ^ e / 2 ^ t = k * 2 ^ (e - t) := by
    rw [zpow_sub₀ two_ne_zero, mul_div_assoc]
  rw [ratio]
  by_cases above : t ≤ e
  · obtain ⟨n, shift⟩ := Int.eq_ofNat_of_zero_le (Int.sub_nonneg.mpr above)
    refine .inl ⟨k * 2 ^ n, ?_⟩
    rw [shift]
    push_cast
    rfl
  · refine .inr ⟨by omega, ?_⟩
    have top : (k : ℚ) < 2 ^ 53 := by exact_mod_cast (le_abs_self k).trans_lt bits
    have half : (2 : ℚ) ^ (e - t) ≤ 2 ^ (-1 : ℤ) := zpow_le_zpow_right₀ (by norm_num) (by omega)
    have positive : (0 : ℚ) < 2 ^ (e - t) := zpow_pos (by norm_num) _
    calc (k : ℚ) * 2 ^ (e - t) < 2 ^ 53 * 2 ^ (e - t) := mul_lt_mul_of_pos_right top positive
      _ ≤ 2 ^ 53 * 2 ^ (-1 : ℤ) := mul_le_mul_of_nonneg_left half (by norm_num)
      _ = 2 ^ 52 := by norm_num

theorem NearestInteger.le_representable (h : NearestInteger (size / 2 ^ t) r)
    (normal : t = -1074 ∨ 2 ^ 52 ≤ size / 2 ^ t) (grid : Representable y) :
    |size - r * 2 ^ t| ≤ |size - y| ∧
      (|size - y| = |size - r * 2 ^ t| → y ≠ r * 2 ^ t → r % 2 = 0) := by
  have unit : (0 : ℚ) < 2 ^ t := zpow_pos (by norm_num) t
  have distance (z : ℚ) : |size - z * 2 ^ t| = |size / 2 ^ t - z| * 2 ^ t := by
    rw [← abs_of_pos unit, ← abs_mul, abs_of_pos unit, sub_mul, div_mul_cancel₀ _ unit.ne']
  have split : y / 2 ^ t * 2 ^ t = y := div_mul_cancel₀ _ unit.ne'
  rw [← split, distance, distance, mul_le_mul_iff_left₀ unit, mul_left_inj' unit.ne', Ne,
    mul_left_inj' unit.ne']
  rcases grid.in_units t with ⟨j, integer⟩ | ⟨above, less⟩
  · rw [integer]
    exact h.le_integer j
  · have least := normal.resolve_left above.ne'
    have nearer := h.lt_of_lt_floor (k := 2 ^ 52) (by exact_mod_cast least)
      (by exact_mod_cast less)
    exact ⟨nearer.le, fun tie => absurd tie nearer.ne'⟩

/-- A rounded mantissa of 54 digits is a power of two, which takes the next exponent. -/
def carried (s : Sign) (r : Nat) (t : Int) : UnpackedFloat :=
  if zero : r = 0 then .zero s
  else if r < 2 ^ 53 then .finite s r t (Nat.pos_of_ne_zero zero)
  else .finite s (2 ^ 52) (t + 1) (by decide)

/-- How far rounding has got: the mantissa is in units of the last place of the result, which hold
    the number without more than 53 digits. -/
structure Scaled (size : ℚ) (r : Nat) (t : ℤ) : Prop where
  integer : NearestInteger (size / 2 ^ t) r
  least : -1074 ≤ t
  normal : t = -1074 ∨ 2 ^ 52 ≤ size / 2 ^ t
  most : size / 2 ^ t < 2 ^ 53

theorem Scaled.le_pow (h : Scaled size r t) : r ≤ 2 ^ 53 :=
  h.integer.le_of_lt (by exact_mod_cast h.most)

theorem Scaled.canonical (h : Scaled size r t) : Canonical (carried s r t) := by
  have least := h.least
  unfold carried
  split_ifs with zero bits
  · trivial
  · refine ⟨bits, least, h.normal.symm.imp_left fun large => ?_⟩
    exact h.integer.le_of_le (by exact_mod_cast large)
  · exact ⟨by decide, by omega, .inl le_rfl⟩

theorem targetExponent_eq (t : Int) :
    Format.binary64.targetExponent t = max (t - 53) (-1074) := by
  rfl

theorem totalExponent_le {k : Nat} (h : m < 2 ^ k) (positive : 0 < k) :
    totalExponent m e ≤ k + e := by
  have log : m.log2 + 1 ≤ k := by
    by_cases zero : m = 0
    · rw [zero, Nat.log2_zero]
      exact positive
    · exact (Nat.log2_lt zero).mpr h
  unfold totalExponent
  omega

theorem shiftToTargetExponent_exact {n : Nat}
    (shift : (Format.binary64.targetExponent (totalExponent r t) - t).toNat = n) :
    (shiftToTargetExponent Format.binary64 r t .exact).1.mantissa = r / 2 ^ n ∧
      (shiftToTargetExponent Format.binary64 r t .exact).2 = t + n := by
  subst shift
  exact ⟨mantissa_shiftRight _ _, rfl⟩

theorem roundWithAccuracy_eq_carried (least : -1074 ≤ t) (bits : r ≤ 2 ^ 53)
    (target : (shiftToTargetExponent Format.binary64 m e accuracy).2 = t)
    (rounded : (shiftToTargetExponent Format.binary64 m e accuracy).1.roundedMantissa = r) :
    roundWithAccuracy Format.binary64 s m e accuracy = carried s r t := by
  have goal := targetExponent_eq (totalExponent r t)
  unfold roundWithAccuracy carried
  dsimp only
  rw [target, rounded]
  by_cases carry : r < 2 ^ 53
  · have total := totalExponent_le (e := t) carry (by decide)
    have still : (Format.binary64.targetExponent (totalExponent r t) - t).toNat = 0 := by omega
    obtain ⟨mantissa, exponent⟩ := shiftToTargetExponent_exact still
    rw [pow_zero, Nat.div_one] at mantissa
    rw [Nat.cast_zero, add_zero] at exponent
    simp only [mantissa, exponent, carry, if_true]
  · obtain rfl : r = 2 ^ 53 := by omega
    have total : totalExponent (2 ^ 53) t = 54 + t := by
      rw [totalExponent, Nat.log2_two_pow]
      rfl
    have once : (Format.binary64.targetExponent (totalExponent (2 ^ 53) t) - t).toNat = 1 := by
      omega
    obtain ⟨mantissa, exponent⟩ := shiftToTargetExponent_exact once
    simp only [mantissa, exponent]
    rfl

theorem scaled_of_describes (h : Describes m accuracy (size / 2 ^ e))
    (fits : e ≤ Format.binary64.targetExponent (totalExponent m e)) :
    Scaled size (shiftToTargetExponent Format.binary64 m e accuracy).1.roundedMantissa
      (shiftToTargetExponent Format.binary64 m e accuracy).2 := by
  obtain ⟨low, high⟩ := h.bounds
  have held := h.holds.shiftRight
    (Format.binary64.targetExponent (totalExponent m e) - e).toNat
  have log := Nat.lt_log2_self (n := m)
  unfold shiftToTargetExponent shiftToExponent
  dsimp only
  rw [targetExponent_eq, totalExponent] at fits held ⊢
  generalize shift : (max (m.log2 + 1 + e - 53) (-1074) - e).toNat = n at held ⊢
  have units : size / 2 ^ (e + n : ℤ) = size / 2 ^ e / 2 ^ n := by
    rw [zpow_add₀ two_ne_zero, zpow_natCast, div_div]
  have unit : (0 : ℚ) < 2 ^ n := by positivity
  refine ⟨units ▸ held.nearestInteger, by omega, ?_, ?_⟩
  · rw [units]
    by_cases least : e + n = -1074
    · exact .inl least
    · have long : 52 + n = m.log2 := by omega
      have some : m ≠ 0 := by
        rintro rfl
        rw [Nat.log2_zero] at long
        omega
      have digits : (2 ^ 52 : ℚ) * 2 ^ n ≤ m := by
        have whole := Nat.log2_self_le some
        rw [← long, Nat.pow_add] at whole
        exact_mod_cast whole
      exact .inr ((le_div_iff₀ unit).mpr (digits.trans low))
  · have digits : (m : ℚ) + 1 ≤ 2 ^ 53 * 2 ^ n := by
      have whole : m + 1 ≤ 2 ^ (53 + n) :=
        log.trans_le (Nat.pow_le_pow_right (by decide) (by omega))
      rw [Nat.pow_add] at whole
      exact_mod_cast whole
    rw [units, div_lt_iff₀ unit]
    exact high.trans_le digits

namespace Scaled

theorem small_iff (h : Scaled size r t) (s : Sign) : Small (carried s r t) ↔ size < limit := by
  have most := h.most
  have positive : (0 : ℚ) < 2 ^ t := zpow_pos (by norm_num) t
  have whole : size = size / 2 ^ t * 2 ^ t := (div_mul_cancel₀ _ positive.ne').symm
  rw [limit_eq]
  generalize top : (2 : ℚ) ^ (971 : ℤ) = u
  rcases lt_trichotomy t 971 with less | rfl | greater
  · have finite : Small (carried s r t) := by
      unfold carried
      split_ifs
      · trivial
      · exact less.le
      · exact Int.add_one_le_of_lt less
    have unit : 2 ^ t * 2 ≤ u := by
      rw [← zpow_add_one₀ two_ne_zero, ← top]
      exact zpow_le_zpow_right₀ (by norm_num) less
    refine iff_of_true finite ?_
    rw [whole]
    calc size / 2 ^ t * 2 ^ t < 2 ^ 53 * 2 ^ t := mul_lt_mul_of_pos_right most positive
      _ ≤ (2 ^ 53 - 1 / 2) * u := by linarith
  · have carry := h.integer.lt_iff (k := 2 ^ 53) rfl
    rw [Nat.cast_pow, Nat.cast_ofNat] at carry
    rw [← div_lt_iff₀ (top ▸ positive), ← top, ← carry]
    unfold carried
    split_ifs with zero bits
    · exact iff_of_true trivial (by omega)
    · exact iff_of_true (le_refl (971 : ℤ)) bits
    · exact iff_of_false (by simp [Small]) bits
  · have large := h.normal.resolve_left (by omega)
    have least : 2 ^ 52 ≤ r := h.integer.le_of_le (by exact_mod_cast large)
    have infinite : ¬ Small (carried s r t) := by
      unfold carried
      split_ifs with zero
      · omega
      · exact greater.not_ge
      · exact (greater.trans (Int.lt_succ t)).not_ge
    have unit : u * 2 ≤ 2 ^ t := by
      rw [← top, ← zpow_add_one₀ two_ne_zero]
      exact zpow_le_zpow_right₀ (by norm_num) greater
    have some : 0 < u := top ▸ zpow_pos (by norm_num) _
    refine iff_of_false infinite (not_lt.mpr ?_)
    rw [whole]
    calc (2 ^ 53 - 1 / 2) * u ≤ 2 ^ 52 * 2 ^ t := by linarith
      _ ≤ size / 2 ^ t * 2 ^ t := mul_le_mul_of_nonneg_right large positive.le

theorem fields (h : Scaled size r t) :
    ∃ d : Dyadic, Dyadic.ofUnpacked? (carried s r t) = some d ∧ d.negative = (s == .negative) ∧
      (d.mantissa * 2 ^ d.exponent : ℚ) = r * 2 ^ t ∧ (r % 2 = 0 → d.mantissa % 2 = 0) := by
  unfold carried
  split_ifs with zero bits
  · exact ⟨_, rfl, rfl, by simp [zero], fun _ => rfl⟩
  · exact ⟨_, rfl, rfl, rfl, id⟩
  · have carry : r = 2 ^ 53 := le_antisymm h.le_pow (not_lt.mp bits)
    refine ⟨_, rfl, rfl, ?_, fun _ => by norm_num⟩
    rw [carry, zpow_add_one₀ two_ne_zero]
    push_cast
    ring

theorem isNearest (h : Scaled size r t) (same : x.toModel.unpack = carried s r t)
    (finite : x.isFinite = true) :
    IsNearest (signFactor (s == .negative) * size) x ∧
      (Dyadic.ofFloat x).negative = (s == .negative) := by
  obtain ⟨d, known, sign, magnitude, parity⟩ := h.fields (s := s)
  have same := same ▸ Dyadic.ofUnpacked?_unpack finite
  obtain rfl : d = Dyadic.ofFloat x := Option.some.inj (known.symm.trans same)
  have distance (y : ℚ) : |signFactor (s == .negative) * size - y| =
      |size - signFactor (s == .negative) * y| := abs_signFactor_mul_sub _ size y
  have value : signFactor (s == .negative) * (Dyadic.ofFloat x).value = r * 2 ^ t := by
    rw [Dyadic.value, sign, ← mul_assoc, signFactor_mul_signFactor, one_mul, magnitude]
  refine ⟨⟨finite, fun y grid => ?_, fun y grid tie other => parity ?_⟩, sign⟩
  · rw [distance, distance, value]
    exact (h.integer.le_representable h.normal (grid.signFactor_mul _)).1
  · rw [distance, distance, value] at tie
    refine (h.integer.le_representable h.normal (grid.signFactor_mul _)).2 tie fun equal => ?_
    have cancel := congrArg (signFactor (s == .negative) * ·) (equal.trans value.symm)
    simp only [← mul_assoc, signFactor_mul_signFactor, one_mul] at cancel
    exact other cancel

theorem rounds (h : Scaled size r t) :
    Rounds (s == .negative) size (.ofModel (Float.Model.pack (carried s r t))) := by
  constructor
  · intro less
    have small := (h.small_iff s).mpr less
    exact h.isNearest (unpack_pack h.canonical small) (isFinite_pack small)
  · intro large
    have infinite := mt (h.small_iff s).mp (not_lt.mpr large)
    have canonical := h.canonical (s := s)
    cases form : carried s r t with
    | notANumber | infinity =>
      rw [form] at canonical
      cases canonical
    | zero s' =>
      rw [form] at infinite
      exact absurd trivial infinite
    | finite s' m e positive =>
      rw [form] at infinite
      exact isFinite_pack_eq_false positive (not_le.mp infinite)

end Scaled

/-- Rounding is correct for every number that a mantissa, an exponent and an accuracy describe. -/
theorem rounds_roundWithAccuracy (h : Describes m accuracy (size / 2 ^ e))
    (fits : e ≤ Format.binary64.targetExponent (totalExponent m e)) :
    Rounds (s == .negative) size
      (.ofModel (Float.Model.pack (roundWithAccuracy Format.binary64 s m e accuracy))) := by
  have scaled := scaled_of_describes h fits
  rw [roundWithAccuracy_eq_carried scaled.least scaled.le_pow rfl rfl]
  exact scaled.rounds

theorem rounds_zero (least : 0 ≤ size) (most : size ≤ 2 ^ (-1075 : ℤ)) :
    Rounds (s == .negative) size (.ofModel (Float.Model.pack (.zero s))) := by
  have unit : (0 : ℚ) < 2 ^ (-1074 : ℤ) := zpow_pos (by norm_num) _
  have half : (2 : ℚ) ^ (-1074 : ℤ) = 2 ^ (-1075 : ℤ) * 2 := zpow_add_one₀ two_ne_zero (-1075)
  have small : size / 2 ^ (-1074 : ℤ) ≤ 1 / 2 := by
    rw [div_le_iff₀ unit, half]
    linarith
  have natural : 0 ≤ size / 2 ^ (-1074 : ℤ) := div_nonneg least unit.le
  have scaled : Scaled size 0 (-1074) := by
    refine ⟨⟨?_, fun _ => rfl⟩, le_rfl, .inl rfl, by linarith⟩
    rwa [Nat.cast_zero, sub_zero, abs_of_nonneg natural]
  exact scaled.rounds

end Spreadsheet.Double
