import Spreadsheet.Proofs.Decimal.Reading

namespace Spreadsheet.Double

open Float.Model Float.Model.UnpackedFloat

variable {m m' : Nat} {e e' : Int} {f : UnpackedFloat} {x y : Float} {positive : 0 < m}
  {positive' : 0 < m'} {q a b size : ℚ}

theorem rounds_self (finite : x.isFinite = true) :
    Rounds (Dyadic.ofFloat x).negative (Dyadic.ofFloat x).size x := by
  have small := (representable_value finite).abs_lt_limit
  rw [Dyadic.abs_value] at small
  refine ⟨fun _ => ⟨⟨finite, fun y _ => ?_, fun y _ tie other => ?_⟩, rfl⟩,
    fun large => absurd small (not_lt.mpr large)⟩
  · rw [← Dyadic.value_eq_mul_size, sub_self, abs_zero]
    exact abs_nonneg _
  · rw [← Dyadic.value_eq_mul_size, sub_self, abs_zero, abs_eq_zero, sub_eq_zero] at tie
    exact absurd tie.symm other

theorem Bounded.small (h : Bounded f) : Small f := by
  cases f with
  | notANumber | infinity => cases h
  | zero s => trivial
  | finite s m e positive => exact h.2

theorem rounds_pack (canonical : Canonical f) (small : Small f) :
    Rounds (isNegative f) (magnitude f) (.ofModel (Float.Model.pack f)) := by
  have finite : (Float.ofModel (Float.Model.pack f)).isFinite = true := isFinite_pack small
  have same : (Float.ofModel (Float.Model.pack f)).toModel.unpack = f :=
    unpack_pack canonical small
  obtain ⟨sign, size⟩ := fields_eq finite
  have rounds := rounds_self finite
  rwa [sign, size, same] at rounds

theorem eq_positive {s : Sign} (h : (s == .negative) = false) : s = .positive := by
  cases s with
  | positive => rfl
  | negative => cases h

theorem shiftLeft_mul_zpow (m : Nat) (shift : e' ≤ e) :
    ((m <<< (e - e').toNat : Nat) * 2 ^ e' : ℚ) = m * 2 ^ e := by
  obtain ⟨n, difference⟩ := Int.eq_ofNat_of_zero_le (Int.sub_nonneg.mpr shift)
  have split : (2 : ℚ) ^ e = 2 ^ n * 2 ^ e' := by
    rw [← zpow_natCast, ← zpow_add₀ two_ne_zero]
    congr 1
    omega
  rw [difference, Int.toNat_natCast, Nat.shiftLeft_eq, split]
  push_cast
  ring

theorem rounds_add_finite :
    Rounds false (m * 2 ^ e + m' * 2 ^ e')
      (.ofModel (Float.Model.pack (UnpackedFloat.add Format.binary64 (.finite .positive m e positive)
        (.finite .positive m' e' positive')))) := by
  have rounds := rounds_normalize
    (m <<< (e - min e e').toNat + m' <<< (e' - min e e').toNat) (min e e')
  rw [Nat.cast_add, add_mul, shiftLeft_mul_zpow m (min_le_left e e'),
    shiftLeft_mul_zpow m' (min_le_right e e')] at rounds
  exact rounds

/-- A sum of finite doubles that are not negative is rounded correctly. -/
theorem rounds_add (left : x.isFinite = true) (right : y.isFinite = true)
    (sign : (Dyadic.ofFloat x).negative = false) (sign' : (Dyadic.ofFloat y).negative = false) :
    Rounds false ((Dyadic.ofFloat x).size + (Dyadic.ofFloat y).size) (x + y) := by
  obtain ⟨negative, size⟩ := fields_eq left
  obtain ⟨negative', size'⟩ := fields_eq right
  have canonical := canonical_unpack left
  have canonical' := canonical_unpack right
  have small := (bounded_unpack left).small
  have small' := (bounded_unpack right).small
  have sum : x + y = .ofModel (Float.Model.pack
    (UnpackedFloat.add Format.binary64 x.toModel.unpack y.toModel.unpack)) := rfl
  rw [sum, size, size']
  rw [negative] at sign
  rw [negative'] at sign'
  generalize x.toModel.unpack = f at canonical small sign ⊢
  generalize y.toModel.unpack = g at canonical' small' sign' ⊢
  cases f with
  | notANumber | infinity => cases canonical
  | zero s =>
    cases g with
    | notANumber | infinity => cases canonical'
    | zero s' =>
      obtain rfl := eq_positive sign
      obtain rfl := eq_positive sign'
      simp only [magnitude, add_zero]
      exact rounds_zero (s := .positive) le_rfl (by positivity)
    | finite s' m' e' positive' =>
      have none : magnitude (.zero s) = 0 := rfl
      rw [none, zero_add, ← sign']
      exact rounds_pack canonical' small'
  | finite s m e positive =>
    cases g with
    | notANumber | infinity => cases canonical'
    | zero s' =>
      have none : magnitude (.zero s') = 0 := rfl
      rw [none, add_zero, ← sign]
      exact rounds_pack canonical small
    | finite s' m' e' positive' =>
      obtain rfl := eq_positive sign
      obtain rfl := eq_positive sign'
      exact rounds_add_finite

theorem IsNearest.le_value_of_le (h : IsNearest q x) (grid : Representable a) (least : a ≤ q) :
    a ≤ (Dyadic.ofFloat x).value := by
  by_contra! less
  have near := h.nearest a grid
  rw [abs_of_nonneg (by linarith), abs_of_nonneg (by linarith)] at near
  linarith

theorem IsNearest.value_le_of_le (h : IsNearest q x) (grid : Representable b) (most : q ≤ b) :
    (Dyadic.ofFloat x).value ≤ b := by
  by_contra! greater
  have near := h.nearest b grid
  rw [abs_of_nonpos (by linarith), abs_of_nonpos (by linarith)] at near
  linarith

theorem Rounds.between (h : Rounds false size x) (low : Representable a) (high : Representable b)
    (least : a ≤ size) (most : size ≤ b) :
    x.isFinite = true ∧ (Dyadic.ofFloat x).negative = false ∧
      a ≤ (Dyadic.ofFloat x).size ∧ (Dyadic.ofFloat x).size ≤ b := by
  have small : size < limit := most.trans_lt ((le_abs_self b).trans_lt high.abs_lt_limit)
  obtain ⟨near, sign⟩ := h.nearest small
  have one (q : ℚ) : signFactor false * q = q := one_mul q
  have value := (Dyadic.ofFloat x).value_eq_mul_size
  rw [sign, one] at value
  rw [one] at near
  rw [← value]
  exact ⟨near.finite, sign, near.le_value_of_le low least, near.value_le_of_le high most⟩

end Spreadsheet.Double
