import Spreadsheet.Decimal.Fixed
import Spreadsheet.Proofs.Decimal.Binary

namespace Spreadsheet

def signFactor (negative : Bool) : ℚ := if negative then -1 else 1

/-- The exact number of a finite double. -/
def Dyadic.value (d : Dyadic) : ℚ := signFactor d.negative * (d.mantissa * 2 ^ d.exponent)

/-- The number that a decimal numeral writes. -/
def Numeral.value (n : Numeral) : ℚ := signFactor n.negative * (n.coefficient * 10 ^ n.exponent)

theorem Numeral.exists_multiple (n : Numeral) :
    ∃ k : ℤ, n.value = k * 10 ^ n.exponent ∧ k.natAbs = n.coefficient := by
  obtain ⟨negative, coefficient, exponent⟩ := n
  cases negative with
  | false => exact ⟨coefficient, one_mul _, rfl⟩
  | true =>
    refine ⟨-coefficient, ?_, by simp⟩
    rw [value, signFactor, if_pos rfl]
    push_cast
    ring

theorem Numeral.abs_value (n : Numeral) : |n.value| = n.coefficient * 10 ^ n.exponent := by
  obtain ⟨k, multiple, size⟩ := n.exists_multiple
  have power : (0 : ℚ) < 10 ^ n.exponent := zpow_pos (by norm_num) _
  rw [multiple, abs_mul, abs_of_pos power, ← size, Nat.cast_natAbs, Int.cast_abs]

theorem Numeral.value_eq_zero_iff (n : Numeral) : n.value = 0 ↔ n.coefficient = 0 := by
  have power : (10 : ℚ) ^ n.exponent ≠ 0 := zpow_ne_zero _ (by norm_num)
  rw [← abs_eq_zero, n.abs_value, mul_eq_zero_iff_right power, Nat.cast_eq_zero]

/-- A multiple of a unit nearest to a value; of two as near, the one further from zero. -/
structure RoundsTo (unit value result : ℚ) : Prop where
  multiple : ∃ k : ℤ, result = k * unit
  nearest : ∀ k : ℤ, |value - result| ≤ |value - k * unit|
  away : ∀ k : ℤ, |value - k * unit| = |value - result| → |k * unit| ≤ |result|

namespace RoundsTo

variable {unit value result result' : ℚ} {k : Nat}

theorem eq (h : RoundsTo unit value result) (h' : RoundsTo unit value result') :
    result = result' := by
  obtain ⟨k, multiple⟩ := h.multiple
  obtain ⟨k', multiple'⟩ := h'.multiple
  have near : |value - result| = |value - result'| :=
    le_antisymm (multiple' ▸ h.nearest k') (multiple ▸ h'.nearest k)
  have size : |result| = |result'| := by
    apply le_antisymm
    · rw [multiple]
      exact h'.away k (multiple ▸ near)
    · rw [multiple']
      exact h.away k' (multiple' ▸ near.symm)
  rcases abs_eq_abs.mp size with same | opposite
  · exact same
  -- Two opposite results are as near only to zero, which is a multiple itself.
  · rw [opposite, sub_neg_eq_add] at near
    rcases abs_eq_abs.mp near with zero | zero
    · linarith
    · have least := h.nearest 0
      have none : value = 0 := by linarith
      rw [none, Int.cast_zero, zero_mul, sub_zero, abs_zero, zero_sub, abs_neg, abs_nonpos_iff]
        at least
      linarith

theorem neg (h : RoundsTo unit value result) : RoundsTo unit (-value) (-result) := by
  have mirror (k : ℤ) : |-value - k * unit| = |value - (-k : ℤ) * unit| := by
    rw [← abs_neg]
    congr 1
    push_cast
    ring
  have distance : |-value - -result| = |value - result| := by rw [← abs_neg]; congr 1; ring
  obtain ⟨k, multiple⟩ := h.multiple
  refine ⟨⟨-k, by rw [multiple]; push_cast; ring⟩, fun j => ?_, fun j same => ?_⟩
  · rw [distance, mirror]
    exact h.nearest (-j)
  · rw [distance, mirror] at same
    have size := h.away (-j) same
    rwa [Int.cast_neg, neg_mul, abs_neg, ← abs_neg result] at size

theorem scale (h : RoundsTo 1 value result) (positive : 0 < unit) :
    RoundsTo unit (value * unit) (result * unit) := by
  have distance (r : ℚ) : |value * unit - r * unit| = |value - r| * unit := by
    rw [← sub_mul, abs_mul, abs_of_pos positive]
  obtain ⟨k, multiple⟩ := h.multiple
  refine ⟨⟨k, by rw [multiple, mul_one]⟩, fun j => ?_, fun j same => ?_⟩
  · have near := h.nearest j
    rw [mul_one] at near
    rw [distance, distance]
    exact mul_le_mul_of_nonneg_right near positive.le
  · rw [distance, distance] at same
    have size := h.away j (by rw [mul_one]; exact mul_right_cancel₀ positive.ne' same)
    rw [mul_one] at size
    rw [abs_mul, abs_mul]
    exact mul_le_mul_of_nonneg_right size (abs_nonneg unit)

theorem signFactor_mul (negative : Bool) (h : RoundsTo unit value result) :
    RoundsTo unit (signFactor negative * value) (signFactor negative * result) := by
  cases negative with
  | false => simpa only [signFactor, Bool.false_eq_true, if_false, one_mul] using h
  | true => simpa only [signFactor, if_true, neg_one_mul] using h.neg

theorem of_floor (least : 0 ≤ value) (floor : k = ⌊value + 1 / 2⌋₊) : RoundsTo 1 value k := by
  have low : (k : ℚ) ≤ value + 1 / 2 := floor ▸ Nat.floor_le (by linarith)
  have high : value + 1 / 2 < k + 1 := floor ▸ Nat.lt_floor_add_one _
  have half : |value - k| ≤ 1 / 2 := abs_le.mpr ⟨by linarith, by linarith⟩
  refine ⟨⟨k, by push_cast; ring⟩, fun j => ?_, fun j same => ?_⟩
  · rw [mul_one]
    by_cases other : j = k
    · rw [other]
      rfl
    · have gap : (1 : ℚ) ≤ |(j : ℚ) - k| := by
        exact_mod_cast Int.one_le_abs (sub_ne_zero.mpr other)
      have triangle := abs_sub_le (j : ℚ) value k
      rw [abs_sub_comm (j : ℚ) value] at triangle
      linarith
  · rw [mul_one] at same ⊢
    rw [← same] at half
    obtain ⟨left, right⟩ := abs_le.mp half
    have above : (-1 : ℚ) < j := by linarith
    have below : (j : ℚ) ≤ k := by
      by_contra beyond
      have next : (k : ℚ) + 1 ≤ j := by
        have order : (k : ℤ) < j := by exact_mod_cast not_le.mp beyond
        exact_mod_cast order
      linarith
    have natural : (0 : ℚ) ≤ j := by
      have order : -1 < j := by exact_mod_cast above
      exact_mod_cast (show 0 ≤ j by omega)
    rw [abs_of_nonneg natural, abs_of_nonneg (Nat.cast_nonneg k)]
    exact below

end RoundsTo

theorem zpow_eq_div {base : ℚ} (some : base ≠ 0) (n : ℤ) :
    base ^ n = base ^ n.toNat / base ^ (-n).toNat := by
  conv_lhs => rw [← Int.toNat_sub_toNat_neg n]
  rw [zpow_sub₀ some, zpow_natCast, zpow_natCast]

theorem Dyadic.numerator_div_denominator (d : Dyadic) :
    (d.numerator : ℚ) / d.denominator = d.mantissa * 2 ^ d.exponent := by
  rw [numerator, denominator, zpow_eq_div two_ne_zero]
  push_cast [Nat.pow_eq]
  ring

namespace Fixed

theorem roundHalfUp_eq_floor {denominator : Nat} (numerator : Nat) (positive : 0 < denominator) :
    roundHalfUp numerator denominator = ⌊(numerator : ℚ) / denominator + 1 / 2⌋₊ := by
  have some : (denominator : ℚ) ≠ 0 := Nat.cast_ne_zero.mpr positive.ne'
  have sum : (numerator : ℚ) / denominator + 1 / 2 =
      (2 * numerator + denominator : Nat) / (2 * denominator : Nat) := by
    push_cast
    field_simp
  rw [sum, Nat.floor_div_eq_div]
  rfl

/-- Rounding to decimal places gives the nearest multiple, and a tie goes away from zero. -/
theorem roundsTo_rounded (d : Dyadic) (places : ℤ) :
    RoundsTo (10 ^ (-places)) d.value (rounded d places).value := by
  have unit : (0 : ℚ) < 10 ^ (-places) := zpow_pos (by norm_num) _
  have bottom : 0 < d.denominator * Nat.pow 10 (-places).toNat :=
    Nat.mul_pos d.denominator_pos (Nat.pow_pos (by decide))
  have scaled : ((d.numerator * Nat.pow 10 places.toNat : Nat) : ℚ) /
      (d.denominator * Nat.pow 10 (-places).toNat : Nat) * 10 ^ (-places) =
      d.mantissa * 2 ^ d.exponent := by
    have cancel : (10 : ℚ) ^ places * 10 ^ (-places) = 1 := by
      rw [← zpow_add₀ (by norm_num), add_neg_cancel, zpow_zero]
    push_cast [Nat.pow_eq]
    rw [mul_div_mul_comm, ← zpow_eq_div (by norm_num), d.numerator_div_denominator, mul_assoc,
      cancel, mul_one]
  have floor := roundHalfUp_eq_floor (d.numerator * Nat.pow 10 places.toNat) bottom
  have nearest := (RoundsTo.of_floor (by positivity) floor).scale unit
  rw [scaled] at nearest
  exact nearest.signFactor_mul d.negative

theorem roundHalfUp_lt {numerator denominator bound : Nat} (positive : 0 < denominator)
    (less : 2 * numerator + denominator < bound * (2 * denominator)) :
    roundHalfUp numerator denominator < bound := by
  rw [roundHalfUp, Nat.div_lt_iff_lt_mul (by omega)]
  exact less

theorem coefficient_rounded_lt {x : Float} {places : Int} {digits : Nat}
    (finite : x.isFinite = true) (wide : 330 + places ≤ digits) :
    (rounded (Dyadic.ofFloat x) places).coefficient < 10 ^ digits := by
  have top := Dyadic.numerator_lt finite (by decide : 312 ≤ 329)
  have grid (k : Nat) (narrow : k + 1 + places ≤ digits) :
      10 ^ k * 10 * 10 ^ places.toNat ≤ 10 ^ digits * 10 ^ (-places).toNat := by
    rw [← Nat.pow_succ, ← Nat.pow_add, ← Nat.pow_add]
    exact Nat.pow_le_pow_right (by decide) (by omega)
  have fits := grid 329 wide
  apply roundHalfUp_lt (Nat.mul_pos (Dyadic.denominator_pos _) (Nat.pow_pos (by decide)))
  rw [Nat.pow_eq]
  have unit : 0 < 10 ^ places.toNat := Nat.pow_pos (by decide)
  have least : 0 < 10 ^ digits := Nat.pow_pos (by decide)
  generalize 10 ^ 329 = most at top fits
  generalize 10 ^ places.toNat = up at fits unit ⊢
  generalize 10 ^ (-places).toNat = down at fits ⊢
  generalize 10 ^ digits = bound at fits least ⊢
  generalize (Dyadic.ofFloat x).numerator = n at top ⊢
  generalize (Dyadic.ofFloat x).denominator = d at top ⊢
  calc 2 * (n * up) + d * down
      ≤ 2 * (most * d * up) + d * down := by gcongr
    _ < most * 10 * up * d + d * down := by
        have area : 0 < most * d * up := Nat.mul_pos (Nat.zero_lt_of_lt top) unit
        linarith
    _ ≤ bound * down * d + bound * (d * down) :=
        Nat.add_le_add (Nat.mul_le_mul_right d fits) (Nat.le_mul_of_pos_left _ least)
    _ = bound * (2 * (d * down)) := by ring

end Fixed

end Spreadsheet
