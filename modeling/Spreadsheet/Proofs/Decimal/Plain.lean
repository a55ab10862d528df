import Spreadsheet.Proofs.Decimal.Display

namespace Spreadsheet

variable {d : Dyadic} {x : Float} {places c : Nat} {cs : List Char}

/-- Fixed-point texts: a sign or none, digits without superfluous zeros in front, and either nothing
    more or a point and as many digits as there are places, not all of them zeros. -/
def IsPlain (places : Nat) (cs : List Char) : Prop :=
  ∃ sign whole fraction, cs = sign ++ (whole ++ fraction) ∧ (sign = [] ∨ sign = ['-']) ∧
    whole ≠ [] ∧ whole.all Char.isDigit = true ∧ (whole.head? = some '0' → whole = ['0']) ∧
    (fraction = [] ∨ ∃ ds, fraction = '.' :: ds ∧ ds.length = places ∧
      ds.all Char.isDigit = true ∧ ∃ c ∈ ds, c ≠ '0')

theorem IsPlain.no_exponent (h : IsPlain places cs) : 'E' ∉ cs := by
  obtain ⟨sign, whole, fraction, rfl, signs, -, digits, -, fractions⟩ := h
  have letter {ds : List Char} (all : ds.all Char.isDigit = true) : 'E' ∉ ds := fun member =>
    absurd (List.all_eq_true.mp all _ member) (by decide)
  rw [List.mem_append, List.mem_append]
  rintro (member | member | member)
  · rcases signs with rfl | rfl
    · cases member
    · exact absurd (List.mem_singleton.mp member) (by decide)
  · exact letter digits member
  · rcases fractions with rfl | ⟨ds, rfl, -, all, -⟩
    · cases member
    · rcases List.mem_cons.mp member with point | member
      · exact absurd point (by decide)
      · exact letter all member

namespace Fixed

open Numeral

theorem isPlain_fixedMantissa (negative : Bool) (c places : Nat) :
    IsPlain places (signText negative ++ (fixedMantissa c places).chars) := by
  refine ⟨signText negative, wholeDigits c places,
    if (fractionDigits c places).all (· == '0') then [] else '.' :: fractionDigits c places,
    ?_, by cases negative <;> simp [signText], wholeDigits_ne_nil c places,
    all_isDigit_wholeDigits c places, wholeDigits_of_head?, ?_⟩
  · rw [chars_fixedMantissa]
    split
    · rw [List.append_nil]
    · rfl
  · split
    · exact .inl rfl
    · rename_i other
      refine .inr ⟨_, rfl, length_fractionDigits c places, all_isDigit_fractionDigits c places, ?_⟩
      simpa using other

theorem isWrittenOut_iff {n : Numeral} (exponent : n.exponent = -places) :
    IsWrittenOut n ↔ places ≤ 6 ∨ 10 ^ (places - 6) ≤ n.coefficient := by
  have some := List.length_pos_iff.mpr (digits_ne_nil n.coefficient)
  rw [IsWrittenOut, adjusted, exponent]
  -- The first digit stands behind the sixth place if there are no more digits than places after it.
  rcases Nat.lt_or_ge 6 places with long | short
  · have digits : (digits n.coefficient).length ≤ places - 6 ↔ n.coefficient < 10 ^ (places - 6) :=
      Nat.length_toDigits_le_iff (by decide) (by omega)
    omega
  · omega

theorem exponent_mem_text {places : Int} (fine : places ≤ finestPlaces)
    (h : ¬ IsWrittenOut (rounded d places)) : 'E' ∈ (text d places).toList := by
  rw [toList_text_of_not_isWrittenOut fine h]
  simp

theorem isPlain_text_iff (fine : places ≤ finestPlaces) :
    IsPlain places (text d places).toList ↔ IsWrittenOut (rounded d places) := by
  constructor
  · intro plain
    by_contra h
    exact plain.no_exponent (exponent_mem_text fine h)
  · intro h
    rw [toList_text_of_isWrittenOut fine h]
    exact isPlain_fixedMantissa _ _ places

theorem text_eq_zero_iff (fine : places ≤ finestPlaces) :
    text d places = "0" ↔ IsWrittenOut (rounded d places) ∧ (rounded d places).coefficient = 0 := by
  rw [← String.toList_inj]
  by_cases h : IsWrittenOut (rounded d places)
  · rw [toList_text_of_isWrittenOut fine h, and_iff_right h]
    generalize (rounded d places).coefficient = c
    constructor
    · intro zero
      cases sign : d.negative && c != 0 with
      | false =>
        rw [sign] at zero
        exact chars_fixedMantissa_eq_zero_iff.mp zero
      | true =>
        rw [sign] at zero
        cases zero
    · rintro rfl
      rw [fixedMantissa_zero, bne_self_eq_false, Bool.and_false]
      rfl
  · refine ⟨fun zero => ?_, fun both => absurd both.1 h⟩
    have mark := exponent_mem_text fine h
    rw [zero] at mark
    exact absurd mark (by decide)

end Fixed

theorem pow_le_coefficient_iff (long : 6 < places) :
    10 ^ (places - 6) ≤ c ↔ (1 : ℚ) / 10 ^ 6 ≤ c * 10 ^ (-(places : ℤ)) := by
  have split : (10 : ℚ) ^ places = 10 ^ (places - 6) * 10 ^ 6 := by
    rw [← pow_add]
    congr 1
    omega
  have power : (0 : ℚ) < 10 ^ places := by positivity
  rw [zpow_neg, zpow_natCast, ← div_eq_mul_inv, div_le_div_iff₀ (by positivity) power, one_mul,
    split, mul_le_mul_iff_left₀ (by positivity)]
  exact_mod_cast Iff.rfl

/-- Display texts are fixed-point texts just up to six places and for numbers that are rounded to a
    millionth or more. All others have an exponent, that of zero among them. -/
theorem displayNumber_isPlain_iff (finite : x.isFinite = true) (most : places ≤ 999999) :
    ∃ text r, displayNumber (.double x) places = .ok text ∧
      RoundsTo (10 ^ (-(places : ℤ))) (Dyadic.ofFloat x).value r ∧
      (IsPlain places text.toList ↔ places ≤ 6 ∨ 1 / 10 ^ 6 ≤ |r|) ∧
      (text = "0" ↔ places ≤ 6 ∧ r = 0) ∧ ('E' ∈ text.toList ↔ ¬ IsPlain places text.toList) := by
  have fine : (places : Int) ≤ Fixed.finestPlaces := by
    rw [Fixed.finestPlaces]
    omega
  have shown := displayNumber_eq_ok finite (by omega : -330 < (places : ℤ)) (by omega)
  refine ⟨_, _, shown, Fixed.roundsTo_rounded _ _, ?_⟩
  have writtenOut := Fixed.isWrittenOut_iff (n := Fixed.rounded (Dyadic.ofFloat x) places) rfl
  have plain := Fixed.isPlain_text_iff (d := Dyadic.ofFloat x) fine
  have size := (Fixed.rounded (Dyadic.ofFloat x) places).abs_value
  have zero := (Fixed.rounded (Dyadic.ofFloat x) places).value_eq_zero_iff
  refine ⟨plain.trans (writtenOut.trans ?_), ?_, ?_⟩
  · rcases Nat.lt_or_ge 6 places with long | short
    · rw [pow_le_coefficient_iff long, size]
      rfl
    · simp only [short, true_or]
  · rw [Fixed.text_eq_zero_iff fine, writtenOut, zero]
    refine and_congr_left fun none => or_iff_left fun le => ?_
    rw [none] at le
    exact absurd (Nat.pow_pos (by decide)) (Nat.not_lt.mpr le)
  · refine ⟨fun mark shown => shown.no_exponent mark, fun other => ?_⟩
    exact Fixed.exponent_mem_text fine fun h => other (plain.mpr h)

theorem displayNumber_isPlain_iff_of_zero :
    ∃ text r, displayNumber (.double 0.0) (7 : Nat) = .ok text ∧
      RoundsTo (10 ^ (-((7 : Nat) : ℤ))) (Dyadic.ofFloat 0.0).value r ∧
      (IsPlain 7 text.toList ↔ 7 ≤ 6 ∨ 1 / 10 ^ 6 ≤ |r|) ∧
      (text = "0" ↔ 7 ≤ 6 ∧ r = 0) ∧ ('E' ∈ text.toList ↔ ¬ IsPlain 7 text.toList) :=
  displayNumber_isPlain_iff (by decide +kernel) (by decide)

/-- Zero to seven places is not shown as one digit, but with an exponent. -/
theorem displayNumber_zero_of_seven_places :
    (0.0 : Float).isFinite = true ∧ displayNumber (.double 0.0) 7 = .ok "0E-7" ∧
      RoundsTo (10 ^ (-7 : ℤ)) (Dyadic.ofFloat 0.0).value 0 ∧ ¬ IsPlain 7 "0E-7".toList := by
  have rounds := Fixed.roundsTo_rounded (Dyadic.ofFloat 0.0) 7
  have zero : Fixed.rounded (Dyadic.ofFloat 0.0) 7 = ⟨false, 0, -7⟩ := by decide +kernel
  rw [zero, (Numeral.value_eq_zero_iff _).mpr rfl] at rounds
  exact ⟨by decide +kernel, by decide +kernel, rounds, fun plain => plain.no_exponent (by decide)⟩

end Spreadsheet
