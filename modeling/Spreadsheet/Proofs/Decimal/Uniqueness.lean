import Spreadsheet.Proofs.Decimal.Nearest

namespace Spreadsheet.Double

variable {q : ℚ} {x y : Float} {m m' : Nat} {e e' : Int}

theorem ofFloat_injective : Function.Injective Dyadic.ofFloat := by
  intro x y same
  have bits : x.toBits.toNat = y.toBits.toNat := by
    have bound := x.toBits.toNat_lt
    have bound' := y.toBits.toNat_lt
    unfold Dyadic.ofFloat at same
    simp only [Nat.pow_eq] at same
    split at same <;> split at same <;>
      simp only [Dyadic.mk.injEq, decide_eq_decide] at same <;> omega
  have words : x.toModel.toBits = y.toModel.toBits := UInt64.toNat_inj.mp bits
  obtain ⟨⟨b, valid⟩⟩ := x
  obtain ⟨⟨b', valid'⟩⟩ := y
  cases words
  rfl

theorem normal_ofFloat (x : Float) :
    2 ^ 52 ≤ (Dyadic.ofFloat x).mantissa ∨ (Dyadic.ofFloat x).exponent = -1074 := by
  unfold Dyadic.ofFloat
  dsimp only
  split
  · exact .inr rfl
  · exact .inl (Nat.le_add_right _ _)

theorem exponent_le_of_size_eq (bits : m < 2 ^ 53) (least : -1074 ≤ e)
    (normal : 2 ^ 52 ≤ m' ∨ e' = -1074) (same : (m * 2 ^ e : ℚ) = m' * 2 ^ e') : e' ≤ e := by
  by_contra less
  obtain ⟨n, shift⟩ := Int.eq_ofNat_of_zero_le (show 0 ≤ e' - e - 1 by omega)
  have unit : (2 : ℚ) ^ e ≠ 0 := zpow_ne_zero e two_ne_zero
  have split : (2 : ℚ) ^ e' = 2 ^ (n + 1) * 2 ^ e := by
    rw [← zpow_natCast, ← zpow_add₀ two_ne_zero]
    congr 1
    push_cast
    omega
  rw [split, ← mul_assoc, mul_left_inj' unit] at same
  have whole : m = m' * 2 ^ (n + 1) := by exact_mod_cast same
  have large := normal.resolve_right (by omega)
  have some := Nat.two_pow_pos n
  rw [Nat.pow_succ] at whole
  nlinarith

theorem eq_of_value_eq (left : x.isFinite = true) (right : y.isFinite = true)
    (sign : (Dyadic.ofFloat x).negative = (Dyadic.ofFloat y).negative)
    (same : (Dyadic.ofFloat x).value = (Dyadic.ofFloat y).value) : x = y := by
  obtain ⟨bits, -⟩ := Dyadic.bounds_ofFloat left
  obtain ⟨bits', -⟩ := Dyadic.bounds_ofFloat right
  have factor : signFactor (Dyadic.ofFloat y).negative ≠ 0 := by
    rw [← abs_ne_zero, abs_signFactor]
    exact one_ne_zero
  rw [Dyadic.value, Dyadic.value, sign, mul_right_inj' factor] at same
  have exponent : (Dyadic.ofFloat x).exponent = (Dyadic.ofFloat y).exponent :=
    le_antisymm
      (exponent_le_of_size_eq bits' (Dyadic.least_le_exponent y) (normal_ofFloat x) same.symm)
      (exponent_le_of_size_eq bits (Dyadic.least_le_exponent x) (normal_ofFloat y) same)
  rw [exponent, mul_left_inj' (zpow_ne_zero _ two_ne_zero)] at same
  have mantissa : (Dyadic.ofFloat x).mantissa = (Dyadic.ofFloat y).mantissa := by
    exact_mod_cast same
  apply ofFloat_injective
  generalize Dyadic.ofFloat x = d at *
  generalize Dyadic.ofFloat y = d' at *
  obtain ⟨negative, m, e⟩ := d
  obtain ⟨negative', m', e'⟩ := d'
  simp_all

/-- Numbers of the format with an even mantissa. -/
def EvenMantissa (q : ℚ) : Prop :=
  ∃ k e : ℤ, |k| < 2 ^ 53 ∧ -1074 ≤ e ∧ e ≤ 971 ∧ k % 2 = 0 ∧ q = k * 2 ^ e

theorem EvenMantissa.neg (h : EvenMantissa q) : EvenMantissa (-q) := by
  obtain ⟨k, e, bits, least, most, even, rfl⟩ := h
  exact ⟨-k, e, by rwa [abs_neg], least, most, by omega, by push_cast; ring⟩

theorem evenMantissa_value (finite : x.isFinite = true)
    (even : (Dyadic.ofFloat x).mantissa % 2 = 0) : EvenMantissa (Dyadic.ofFloat x).value := by
  obtain ⟨mantissa, exponent⟩ := Dyadic.bounds_ofFloat finite
  have natural : EvenMantissa ((Dyadic.ofFloat x).mantissa * 2 ^ (Dyadic.ofFloat x).exponent) := by
    refine ⟨(Dyadic.ofFloat x).mantissa, _, ?_, Dyadic.least_le_exponent x, exponent, by omega, rfl⟩
    rw [Nat.abs_cast]
    exact_mod_cast mantissa
  rw [Dyadic.value]
  cases (Dyadic.ofFloat x).negative with
  | false => rwa [signFactor, if_neg Bool.false_ne_true, one_mul]
  | true =>
    rw [signFactor, if_pos rfl, neg_one_mul]
    exact natural.neg

/-- Between two numbers with even mantissas lies another number of the format: the one after the
    number with the smaller exponent. -/
theorem exists_between {k k' e e' : ℤ} (even : k % 2 = 0) (even' : k' % 2 = 0)
    (bits : |k| < 2 ^ 53) (least : -1074 ≤ e) (most : e ≤ 971) (le : e ≤ e')
    (less : (k * 2 ^ e : ℚ) < k' * 2 ^ e') :
    ∃ z, Representable z ∧ (k * 2 ^ e : ℚ) < z ∧ z < k' * 2 ^ e' := by
  obtain ⟨n, shift⟩ := Int.eq_ofNat_of_zero_le (Int.sub_nonneg.mpr le)
  have unit : (0 : ℚ) < 2 ^ e := zpow_pos (by norm_num) e
  have split : (k' * 2 ^ e' : ℚ) = (k' * 2 ^ n : ℤ) * 2 ^ e := by
    have power : (2 : ℚ) ^ e' = 2 ^ n * 2 ^ e := by
      rw [← zpow_natCast, ← zpow_add₀ two_ne_zero]
      congr 1
      omega
    rw [power]
    push_cast
    ring
  have parity : (k' * 2 ^ n) % 2 = 0 := by rw [Int.mul_emod, even', zero_mul]; rfl
  rw [split, mul_lt_mul_iff_left₀ unit] at less
  have order : k < k' * 2 ^ n := by exact_mod_cast less
  have next : k + 1 < k' * 2 ^ n := by omega
  refine ⟨(k + 1 : ℤ) * 2 ^ e, ⟨k + 1, e, ?_, least, most, rfl⟩, ?_, ?_⟩
  · rw [abs_lt] at bits ⊢
    omega
  · rw [mul_lt_mul_iff_left₀ unit]
    exact_mod_cast Int.lt_succ k
  · rw [split, mul_lt_mul_iff_left₀ unit]
    exact_mod_cast next

theorem EvenMantissa.exists_between {p : ℚ} (h : EvenMantissa q) (h' : EvenMantissa p)
    (less : q < p) : ∃ z, Representable z ∧ q < z ∧ z < p := by
  obtain ⟨k, e, bits, least, most, even, rfl⟩ := h
  obtain ⟨k', e', bits', least', most', even', rfl⟩ := h'
  rcases le_total e e' with le | le
  · exact Double.exists_between even even' bits least most le less
  · have mirrored : ((-k' : ℤ) * 2 ^ e' : ℚ) < (-k : ℤ) * 2 ^ e := by
      push_cast
      linarith
    obtain ⟨z, grid, low, high⟩ := Double.exists_between (by omega) (by omega)
      (by rwa [abs_neg]) least' most' le mirrored
    push_cast at low high
    exact ⟨-z, grid.neg, by linarith, by linarith⟩

/-- Two doubles are not nearest to one number: another between them is nearer. -/
theorem IsNearest.value_le (h : IsNearest q x) (h' : IsNearest q y) :
    (Dyadic.ofFloat x).value ≤ (Dyadic.ofFloat y).value := by
  by_contra! less
  have tie : |q - (Dyadic.ofFloat x).value| = |q - (Dyadic.ofFloat y).value| :=
    le_antisymm (h.nearest _ (representable_value h'.finite))
      (h'.nearest _ (representable_value h.finite))
  have even := h.even _ (representable_value h'.finite) tie.symm less.ne
  have even' := h'.even _ (representable_value h.finite) tie less.ne'
  obtain ⟨z, grid, low, high⟩ := (evenMantissa_value h'.finite even').exists_between
    (evenMantissa_value h.finite even) less
  have near := h.nearest z grid
  have middle : 2 * q = (Dyadic.ofFloat x).value + (Dyadic.ofFloat y).value := by
    rcases abs_eq_abs.mp tie with same | opposite <;> linarith
  rw [abs_sub_comm, abs_of_nonneg (by linarith)] at near
  rcases abs_choice (q - z) with same | opposite <;> linarith

theorem IsNearest.unique (h : IsNearest q x) (h' : IsNearest q y)
    (sign : (Dyadic.ofFloat x).negative = (Dyadic.ofFloat y).negative) : x = y :=
  eq_of_value_eq h.finite h'.finite sign (le_antisymm (h.value_le h') (h'.value_le h))

end Spreadsheet.Double
