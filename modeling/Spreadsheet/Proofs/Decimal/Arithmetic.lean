import Spreadsheet.Proofs.Decimal.CorrectRounding

namespace Spreadsheet

def Dyadic.size (d : Dyadic) : ℚ := d.mantissa * 2 ^ d.exponent

theorem Dyadic.size_nonneg (d : Dyadic) : 0 ≤ d.size := by
  rw [size]
  positivity

theorem Dyadic.value_eq_mul_size (d : Dyadic) : d.value = signFactor d.negative * d.size := rfl

theorem Dyadic.abs_value (d : Dyadic) : |d.value| = d.size := by
  rw [value_eq_mul_size, abs_mul, Double.abs_signFactor, one_mul, abs_of_nonneg d.size_nonneg]

namespace Double

open Float.Model Float.Model.UnpackedFloat

variable {m m' n : Nat} {e e' : Int} {s s' : Sign} {f g : UnpackedFloat} {x y : Float}
  {positive : 0 < m} {positive' : 0 < m'} {q size : ℚ} {negative : Bool}

theorem signFactor_not (negative : Bool) : signFactor (! negative) = -signFactor negative := by
  cases negative <;> norm_num [signFactor]

def isNegative : UnpackedFloat → Bool
  | .zero s | .finite s _ _ _ | .infinity s => s == .negative
  | .notANumber => false

def magnitude : UnpackedFloat → ℚ
  | .finite _ m e _ => m * 2 ^ e
  | _ => 0

theorem fields_eq (finite : x.isFinite = true) :
    (Dyadic.ofFloat x).negative = isNegative x.toModel.unpack ∧
      (Dyadic.ofFloat x).size = magnitude x.toModel.unpack := by
  have fields := Dyadic.ofUnpacked?_unpack finite
  cases form : x.toModel.unpack with
  | notANumber | infinity => rw [form] at fields; cases fields
  | zero s =>
    rw [form] at fields
    rw [← Option.some.inj fields]
    exact ⟨rfl, by simp [Dyadic.size, magnitude]⟩
  | finite s m e positive =>
    rw [form] at fields
    rw [← Option.some.inj fields]
    exact ⟨rfl, rfl⟩

theorem negative_mul : (s * s' == .negative) = ((s == .negative) != (s' == .negative)) := by
  cases s <;> cases s' <;> rfl

theorem negative_div : (s / s' == .negative) = ((s == .negative) != (s' == .negative)) := by
  cases s <;> cases s' <;> rfl

theorem rounds_mul_finite (long : 2 ^ 52 ≤ m * m' ∨ e + e' ≤ -1074) :
    Rounds (s * s' == .negative) (m * 2 ^ e * (m' * 2 ^ e'))
      (.ofModel (Float.Model.pack (UnpackedFloat.mul Format.binary64 (.finite s m e positive)
        (.finite s' m' e' positive')))) := by
  have product : Describes (m * m') .exact ((m * 2 ^ e * (m' * 2 ^ e') : ℚ) / 2 ^ (e + e')) := by
    have unit : (2 : ℚ) ^ (e + e') ≠ 0 := zpow_ne_zero _ two_ne_zero
    have split : (2 : ℚ) ^ (e + e') = 2 ^ e * 2 ^ e' := zpow_add₀ two_ne_zero e e'
    rw [Describes, div_eq_iff unit, split]
    push_cast
    ring
  refine rounds_roundWithAccuracy product ?_
  rw [targetExponent_eq, totalExponent]
  rcases long with long | small
  · have digits := (Nat.le_log2 (Nat.mul_pos positive positive').ne').mpr long
    omega
  · omega

theorem describes_div (n : Nat) (some : 0 < m) :
    Describes (n / m) (accuracyOfFraction (n % m) m) ((n : ℚ) / m) := by
  have unit : (0 : ℚ) < m := by exact_mod_cast some
  have whole : (n : ℚ) = m * (n / m : Nat) + (n % m : Nat) := by
    exact_mod_cast (Nat.div_add_mod n m).symm
  have less : ((n % m : Nat) : ℚ) < m := by exact_mod_cast Nat.mod_lt n some
  have quotient : (n : ℚ) / m = (n / m : Nat) + (n % m : Nat) / m := by
    rw [div_eq_iff unit.ne']
    field_simp
    linarith
  rw [quotient]
  generalize n / m = q
  generalize n % m = rest at less
  unfold accuracyOfFraction
  split
  · rename_i zero
    rw [zero]
    simp [Describes]
  · rename_i other
    have above : (0 : ℚ) < rest / m := by positivity
    have below : (rest : ℚ) / m < 1 := (div_lt_one unit).mpr less
    rcases order : compare (2 * rest) m
    · have half : (rest : ℚ) / m < 1 / 2 := by
        have twice : (2 * rest : ℚ) < m := by exact_mod_cast Nat.compare_eq_lt.mp order
        rw [div_lt_iff₀ unit]
        linarith
      exact ⟨by linarith, by linarith⟩
    · have half : (rest : ℚ) / m = 1 / 2 := by
        have twice : (2 * rest : ℚ) = m := by exact_mod_cast Nat.compare_eq_eq.mp order
        rw [div_eq_iff unit.ne']
        linarith
      exact congrArg _ half
    · have half : 1 / 2 < (rest : ℚ) / m := by
        have twice : (m : ℚ) < 2 * rest := by exact_mod_cast Nat.compare_eq_gt.mp order
        rw [lt_div_iff₀ unit]
        linarith
      exact ⟨by linarith, by linarith⟩

theorem rounds_div_finite :
    Rounds (s / s' == .negative) (m * 2 ^ e / (m' * 2 ^ e'))
      (.ofModel (Float.Model.pack (UnpackedFloat.div Format.binary64 (.finite s m e positive)
        (.finite s' m' e' positive')))) := by
  unfold UnpackedFloat.div divCore
  dsimp only
  rw [targetExponent_eq, Nat.shiftLeft_eq]
  generalize target : min (e - e') (max (totalExponent m e - totalExponent m' e' - 53) (-1074)) = t
  generalize shift : (e - e' - t).toNat = n
  have quotient := describes_div (m * 2 ^ n) positive'
  have scaled : (m * 2 ^ e / (m' * 2 ^ e') : ℚ) / 2 ^ t = (m * 2 ^ n : Nat) / m' := by
    have shifted : (2 : ℚ) ^ e = 2 ^ n * 2 ^ e' * 2 ^ t := by
      rw [← zpow_natCast, ← zpow_add₀ two_ne_zero, ← zpow_add₀ two_ne_zero]
      congr 1
      omega
    have unit : (2 : ℚ) ^ e' ≠ 0 := zpow_ne_zero _ two_ne_zero
    have unit' : (2 : ℚ) ^ t ≠ 0 := zpow_ne_zero _ two_ne_zero
    have some : (m' : ℚ) ≠ 0 := by exact_mod_cast positive'.ne'
    rw [shifted]
    push_cast
    field_simp
  refine rounds_roundWithAccuracy (scaled ▸ quotient) ?_
  rw [targetExponent_eq]
  unfold totalExponent at target ⊢
  by_cases small : t ≤ -1074
  · omega
  · -- The dividend was shifted so far that the quotient has 53 digits.
    have long : 2 ^ 52 ≤ m * 2 ^ n / m' := by
      rw [Nat.le_div_iff_mul_le positive']
      calc 2 ^ 52 * m' ≤ 2 ^ 52 * 2 ^ (m'.log2 + 1) :=
            Nat.mul_le_mul_left _ Nat.lt_log2_self.le
        _ = 2 ^ (52 + (m'.log2 + 1)) := (Nat.pow_add ..).symm
        _ ≤ 2 ^ (m.log2 + n) := Nat.pow_le_pow_right (by decide) (by omega)
        _ = 2 ^ m.log2 * 2 ^ n := Nat.pow_add ..
        _ ≤ m * 2 ^ n := Nat.mul_le_mul_right _ (Nat.log2_self_le positive.ne')
    have digits := (Nat.le_log2 (Nat.ne_of_gt (Nat.lt_of_lt_of_le (by decide) long))).mpr long
    omega

theorem rounds_mul (left : x.isFinite = true) (right : y.isFinite = true) :
    Rounds ((Dyadic.ofFloat x).negative != (Dyadic.ofFloat y).negative)
      ((Dyadic.ofFloat x).size * (Dyadic.ofFloat y).size) (x * y) := by
  obtain ⟨sign, size⟩ := fields_eq left
  obtain ⟨sign', size'⟩ := fields_eq right
  have canonical := canonical_unpack left
  have canonical' := canonical_unpack right
  have product : x * y = .ofModel (Float.Model.pack
    (UnpackedFloat.mul Format.binary64 x.toModel.unpack y.toModel.unpack)) := rfl
  rw [product, sign, size, sign', size']
  generalize x.toModel.unpack = f at canonical ⊢
  generalize y.toModel.unpack = g at canonical' ⊢
  cases f with
  | notANumber | infinity => cases canonical
  | zero s =>
    cases g with
    | notANumber | infinity => cases canonical'
    | zero s' | finite s' m' e' positive' =>
      simp only [magnitude, isNegative, zero_mul, ← negative_mul]
      exact rounds_zero le_rfl (by positivity)
  | finite s m e positive =>
    cases g with
    | notANumber | infinity => cases canonical'
    | zero s' =>
      simp only [magnitude, isNegative, mul_zero, ← negative_mul]
      exact rounds_zero le_rfl (by positivity)
    | finite s' m' e' positive' =>
      simp only [magnitude, isNegative, ← negative_mul]
      obtain ⟨-, -, long | least⟩ := canonical
      · exact rounds_mul_finite (.inl (long.trans (Nat.le_mul_of_pos_right m positive')))
      · obtain ⟨-, -, long | least'⟩ := canonical'
        · exact rounds_mul_finite (.inl (long.trans (Nat.le_mul_of_pos_left m' positive)))
        · exact rounds_mul_finite (.inr (by omega))

theorem rounds_div (left : x.isFinite = true) (right : y.isFinite = true)
    (some : (Dyadic.ofFloat y).size ≠ 0) :
    Rounds ((Dyadic.ofFloat x).negative != (Dyadic.ofFloat y).negative)
      ((Dyadic.ofFloat x).size / (Dyadic.ofFloat y).size) (x / y) := by
  obtain ⟨sign, size⟩ := fields_eq left
  obtain ⟨sign', size'⟩ := fields_eq right
  have canonical := canonical_unpack left
  have canonical' := canonical_unpack right
  have quotient : x / y = .ofModel (Float.Model.pack
    (UnpackedFloat.div Format.binary64 x.toModel.unpack y.toModel.unpack)) := rfl
  rw [size'] at some
  rw [quotient, sign, size, sign', size']
  generalize x.toModel.unpack = f at canonical ⊢
  generalize y.toModel.unpack = g at canonical' some ⊢
  cases g with
  | notANumber | infinity => cases canonical'
  | zero s' => exact absurd rfl some
  | finite s' m' e' positive' =>
    cases f with
    | notANumber | infinity => cases canonical
    | zero s =>
      simp only [magnitude, isNegative, zero_div, ← negative_div]
      exact rounds_zero le_rfl (by positivity)
    | finite s m e positive =>
      simp only [magnitude, isNegative, ← negative_div]
      exact rounds_div_finite

theorem Canonical.neg (h : Canonical f) : Canonical f.neg := by
  cases f with
  | notANumber | infinity => cases h
  | zero s => trivial
  | finite s m e positive => exact h

theorem ofFloat_neg (finite : x.isFinite = true) :
    Dyadic.ofFloat (-x) = { Dyadic.ofFloat x with negative := ! (Dyadic.ofFloat x).negative } := by
  have fields := Dyadic.ofUnpacked?_unpack finite
  have fields' := Dyadic.ofUnpacked?_unpack (isFinite_neg finite)
  have opposite : (-x).toModel.unpack = x.toModel.unpack.neg :=
    unpack_pack (canonical_unpack finite).neg (bounded_unpack finite).neg
  rw [opposite] at fields'
  cases form : x.toModel.unpack with
  | notANumber | infinity => rw [form] at fields; cases fields
  | zero s | finite s _ _ _ =>
    rw [form] at fields fields'
    rw [← Option.some.inj fields, ← Option.some.inj fields']
    cases s <;> rfl

theorem isFinite_neg_eq_false (infinite : x.isFinite = false) : (-x).isFinite = false := by
  have form : x.toModel.unpack.isFinite = false := infinite
  rw [← Bool.not_eq_true]
  change ¬ (UnpackedFloat.unpack Format.binary64
    (UnpackedFloat.pack Format.binary64 x.toModel.unpack.neg)).isFinite = true
  rw [isFinite_unpack, not_not]
  generalize x.toModel.unpack = f at form ⊢
  cases f with
  | zero | finite => cases form
  | notANumber | infinity => exact unpackExponent_packComponents

theorem value_neg (finite : x.isFinite = true) :
    (Dyadic.ofFloat (-x)).value = -(Dyadic.ofFloat x).value := by
  rw [ofFloat_neg finite, Dyadic.value, Dyadic.value, signFactor_not, neg_mul]

theorem IsNearest.neg (h : IsNearest q x) : IsNearest (-q) (-x) := by
  have value := value_neg h.finite
  have distance (y : ℚ) : |-q - y| = |q - -y| := by
    rw [← abs_neg]
    congr 1
    ring
  refine ⟨isFinite_neg h.finite, fun y grid => ?_, fun y grid tie other => ?_⟩
  · rw [value, distance, distance, neg_neg]
    exact h.nearest (-y) grid.neg
  · rw [value, distance, distance, neg_neg] at tie
    rw [ofFloat_neg h.finite]
    refine h.even (-y) grid.neg tie fun same => other ?_
    rw [value, ← same, neg_neg]

theorem Rounds.neg (h : Rounds negative size x) : Rounds (! negative) size (-x) := by
  refine ⟨fun less => ?_, fun large => isFinite_neg_eq_false (h.overflow large)⟩
  obtain ⟨near, sign⟩ := h.nearest less
  rw [signFactor_not, neg_mul, ofFloat_neg near.finite, sign]
  exact ⟨near.neg, rfl⟩

end Double

end Spreadsheet
