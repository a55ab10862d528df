import Mathlib

namespace Spreadsheet.Double

open Float.Model Float.Model.UnpackedFloat

variable {x y : ℚ} {m r : Nat} {accuracy : Accuracy} {em : ExtendedMantissa}

/-- Where a number lies that was cut to a mantissa. -/
def Describes (m : Nat) : Accuracy → ℚ → Prop
  | .exact, x => x = m
  | .inexact .lt, x => m < x ∧ x < m + 1 / 2
  | .inexact .eq, x => x = m + 1 / 2
  | .inexact .gt, x => m + 1 / 2 < x ∧ x < m + 1

theorem Describes.bounds (h : Describes m accuracy x) : (m : ℚ) ≤ x ∧ x < m + 1 := by
  rcases accuracy with _ | (_ | _ | _) <;> simp only [Describes] at h <;>
    constructor <;> linarith

/-- The mantissa and the two bits after it describe a number. -/
def Holds (em : ExtendedMantissa) (x : ℚ) : Prop := Describes em.mantissa em.accuracy x

theorem Describes.holds (h : Describes m accuracy x) :
    Holds (.ofMantissaAndAccuracy m accuracy) x := by
  rcases accuracy with _ | (_ | _ | _) <;> exact h

theorem Holds.shiftRightOne (h : Holds em x) : Holds em.shiftRightOne (x / 2) := by
  obtain ⟨m, roundBit, stickyBit⟩ := em
  obtain ⟨k, rfl | rfl⟩ := m.even_or_odd'
  · have half : 2 * k / 2 = k := by omega
    cases roundBit <;> cases stickyBit <;>
      simp [Holds, Describes, ExtendedMantissa.accuracy, ExtendedMantissa.shiftRightOne,
        half] at h ⊢ <;>
      first | linarith | constructor <;> linarith
  · have half : (2 * k + 1) / 2 = k := by omega
    cases roundBit <;> cases stickyBit <;>
      simp [Holds, Describes, ExtendedMantissa.accuracy, ExtendedMantissa.shiftRightOne,
        half] at h ⊢ <;>
      first | linarith | constructor <;> linarith

theorem Holds.shiftRight (h : Holds em x) (n : Nat) : Holds (em >>> n) (x / 2 ^ n) := by
  induction n with
  | zero => rwa [pow_zero, div_one]
  | succ n ih =>
    rw [pow_succ, ← div_div]
    exact ih.shiftRightOne

theorem mantissa_shiftRight (em : ExtendedMantissa) (n : Nat) :
    (em >>> n).mantissa = em.mantissa / 2 ^ n := by
  induction n with
  | zero => exact (Nat.div_one _).symm
  | succ n ih =>
    have step : (em >>> (n + 1)).mantissa = (em >>> n).mantissa / 2 := rfl
    rw [step, ih, Nat.div_div_eq_div_mul, Nat.pow_succ]

/-- An integer nearest to a number; of two as near, the even one. -/
structure NearestInteger (x : ℚ) (r : Nat) : Prop where
  near : |x - r| ≤ 1 / 2
  even : |x - r| = 1 / 2 → r % 2 = 0

theorem NearestInteger.of_lt (less : |x - r| < 1 / 2) : NearestInteger x r :=
  ⟨less.le, fun tie => absurd tie less.ne⟩

theorem Holds.nearestInteger (h : Holds em x) : NearestInteger x em.roundedMantissa := by
  obtain ⟨m, roundBit, stickyBit⟩ := em
  cases roundBit <;> cases stickyBit <;>
    simp only [Holds, Describes, ExtendedMantissa.accuracy, ExtendedMantissa.roundedMantissa,
      Accuracy.roundToNearestEven] at h ⊢
  · exact .of_lt (by rw [h]; norm_num)
  · exact .of_lt (abs_lt.mpr ⟨by linarith, by linarith⟩)
  · obtain ⟨k, rfl | rfl⟩ := m.even_or_odd'
    · have last : 2 * k + 2 * k % 2 = 2 * k := by omega
      rw [last]
      exact ⟨by rw [h]; norm_num, fun _ => by omega⟩
    · have last : 2 * k + 1 + (2 * k + 1) % 2 = 2 * k + 1 + 1 := by omega
      rw [last]
      exact ⟨by rw [h]; push_cast; norm_num, fun _ => by omega⟩
  · refine .of_lt (abs_lt.mpr ⟨?_, ?_⟩) <;> push_cast <;> linarith

namespace NearestInteger

theorem le_integer (h : NearestInteger x r) (j : ℤ) :
    |x - r| ≤ |x - j| ∧ (|x - j| = |x - r| → (j : ℚ) ≠ r → r % 2 = 0) := by
  by_cases same : j = r
  · rw [same, Int.cast_natCast]
    exact ⟨le_rfl, fun _ other => absurd rfl other⟩
  · have gap : (1 : ℚ) ≤ |(r : ℚ) - j| := by
      exact_mod_cast Int.one_le_abs (sub_ne_zero.mpr (Ne.symm same))
    have triangle := abs_sub_le (r : ℚ) x j
    rw [abs_sub_comm (r : ℚ) x] at triangle
    have near := h.near
    exact ⟨by linarith, fun tie _ => h.even (by linarith)⟩

theorem le_of_le {k : Nat} (h : NearestInteger x r) (least : (k : ℚ) ≤ x) : k ≤ r := by
  by_contra less
  have next : (r : ℚ) + 1 ≤ k := by exact_mod_cast not_le.mp less
  have near := (abs_le.mp h.near).2
  linarith

theorem le_of_lt {k : Nat} (h : NearestInteger x r) (most : x < k) : r ≤ k := by
  by_contra greater
  have next : (k : ℚ) + 1 ≤ r := by exact_mod_cast not_le.mp greater
  have near := (abs_le.mp h.near).1
  linarith

theorem lt_iff {k : Nat} (h : NearestInteger x r) (even : k % 2 = 0) :
    r < k ↔ x < k - 1 / 2 := by
  obtain ⟨left, right⟩ := abs_le.mp h.near
  constructor
  · intro less
    have next : (r : ℚ) + 1 ≤ k := by exact_mod_cast less
    refine lt_of_le_of_ne (by linarith) fun tie => ?_
    have half : |x - r| = 1 / 2 := by
      rw [abs_of_nonneg (by linarith)]
      linarith
    have last : (k : ℚ) = r + 1 := by linarith [h.even half]
    have odd := h.even half
    have same : k = r + 1 := by exact_mod_cast last
    omega
  · intro less
    by_contra greater
    have order : (k : ℚ) ≤ r := by exact_mod_cast not_lt.mp greater
    linarith

theorem lt_of_lt_floor {k : Nat} (h : NearestInteger x r) (least : (k : ℚ) ≤ x) (less : y < k) :
    |x - r| < |x - y| := by
  have near := (h.le_integer k).1
  rw [Int.cast_natCast, abs_of_nonneg (sub_nonneg.mpr least)] at near
  calc |x - r| ≤ x - k := near
    _ < x - y := by linarith
    _ ≤ |x - y| := le_abs_self _

end NearestInteger

end Spreadsheet.Double
