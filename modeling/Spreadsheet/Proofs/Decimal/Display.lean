import Spreadsheet.Proofs.Decimal.Layout
import Spreadsheet.Proofs.Decimal.Rounding
import Spreadsheet.Resolution.Resolver

namespace Spreadsheet

open Token

variable {d : Dyadic} {x : Float} {places : Int}

namespace Numeral

theorem writes_fixedMantissa (c places : Nat) : (fixedMantissa c places).Writes [] where
  whole := all_isDigit_wholeDigits c places
  fraction ds member := by
    unfold fixedMantissa at member
    split at member
    · cases member
    · cases member
      exact all_isDigit_fractionDigits c places
  digits := by
    have some := wholeDigits_ne_nil c places
    simp [Mantissa.hasDigits, fixedMantissa, some]
  power := .inl rfl
  point empty := by
    unfold fixedMantissa at empty
    split at empty
    · cases empty
    · rename_i other
      rw [Option.some.inj empty] at other
      exact absurd rfl other

theorem isExponent_exponentText (e : Int) : IsExponent ('E' :: Fixed.exponentText e) :=
  .inr ⟨'E', [if e < 0 then '-' else '+'], digits e.natAbs, rfl, .inr rfl, by split <;> simp,
    digits_ne_nil _, all_isDigit_digits _⟩

theorem readExponent?_exponentText (e : Int) :
    readExponent? ('E' :: Fixed.exponentText e) = some e := by
  have some : (digits e.natAbs).isEmpty = false := by simp [digits_ne_nil]
  have all := Text.all_isDecimalDigit (all_isDigit_digits e.natAbs)
  have size : Text.digitsValue (digits e.natAbs) = e.natAbs := Address.digitsValue_toDigits _
  by_cases negative : e < 0
  · simp only [Fixed.exponentText, if_pos negative, readExponent?, readSign, some, all, size]
    change Option.some (-(e.natAbs : Int)) = _
    rw [Int.ofNat_natAbs_of_nonpos negative.le, Int.neg_neg]
  · simp only [Fixed.exponentText, if_neg negative, readExponent?, readSign, some, all, size]
    change Option.some (e.natAbs : Int) = _
    rw [Int.natAbs_of_nonneg (not_lt.mp negative)]

theorem writes_scientificMantissa (c : Nat) (e : Int) :
    (scientificMantissa c).Writes ('E' :: Fixed.exponentText e) where
  whole := Text.all_of_subset (List.take_subset _ _) (all_isDigit_digits c)
  fraction ds member := by
    unfold scientificMantissa at member
    split at member
    · cases member
    · cases member
      exact Text.all_of_subset (List.tail_subset _) (all_isDigit_digits c)
  digits := by
    simp [Mantissa.hasDigits, scientificMantissa, digits_ne_nil]
  power := isExponent_exponentText e
  point _ := nofun

theorem readSign_signText {m : Mantissa} {exponent : List Char} (negative : Bool)
    (h : m.Writes exponent) :
    readSign (signText negative ++ (m.chars ++ exponent)) = (negative, m.chars ++ exponent) := by
  cases negative with
  | false => exact h.readSign
  | true => rfl

theorem digitsValue_append_zeros {ds : List Char} (all : ds.all Char.isDigit = true) (n : Nat) :
    Text.digitsValue (ds ++ List.replicate n '0') = Text.digitsValue ds * 10 ^ n := by
  have zeros : (ds ++ List.replicate n '0').all Char.isDigit = true := by
    rw [List.all_append, all, List.all_replicate]
    simp
  rw [Address.digitsValue_eq_ofDigitChars zeros, Address.digitsValue_eq_ofDigitChars all,
    Nat.ofDigitChars_append, Nat.ofDigitChars_replicate_zero, Nat.mul_comm]

theorem digitsValue_fixedMantissa (c places : Nat) :
    (Text.digitsValue (fixedMantissa c places).digits : ℚ) *
        10 ^ (0 - ((fixedMantissa c places).places : ℤ)) = c * 10 ^ (-(places : ℤ)) := by
  have padded := digitsValue_padded c places
  rw [← wholeDigits_append_fractionDigits] at padded
  have size := length_fractionDigits c places
  unfold fixedMantissa Mantissa.digits Mantissa.places
  split
  · rename_i zeros
    have fraction : fractionDigits c places = List.replicate places '0' :=
      List.eq_replicate_iff.mpr ⟨size, by simpa using zeros⟩
    rw [fraction, digitsValue_append_zeros (all_isDigit_wholeDigits c places)] at padded
    have whole : (c : ℚ) = Text.digitsValue (wholeDigits c places) * 10 ^ places := by
      exact_mod_cast padded.symm
    have power : (10 : ℚ) ^ places ≠ 0 := pow_ne_zero _ (by norm_num)
    rw [whole, zpow_neg, zpow_natCast, mul_inv_cancel_right₀ power]
    simp
  · rw [Option.getD_some, padded, size, zero_sub]

theorem value_fixedMantissa (negative : Bool) (c places : Nat) :
    value ⟨negative && c != 0, Text.digitsValue (fixedMantissa c places).digits,
      0 - (fixedMantissa c places).places⟩ = value ⟨negative, c, -places⟩ := by
  unfold value
  dsimp only
  rw [digitsValue_fixedMantissa]
  by_cases zero : c = 0
  · rw [zero, Nat.cast_zero, zero_mul, mul_zero, mul_zero]
  · rw [bne_iff_ne.mpr zero, Bool.and_true]

theorem digits_scientificMantissa (c : Nat) : (scientificMantissa c).digits = digits c := by
  unfold scientificMantissa Mantissa.digits
  cases digits c with
  | nil => rfl
  | cons d ds => cases ds <;> rfl

theorem places_scientificMantissa (c : Nat) :
    (scientificMantissa c).places = (digits c).length - 1 := by
  unfold scientificMantissa Mantissa.places
  cases digits c with
  | nil => rfl
  | cons d ds => cases ds <;> rfl

theorem adjusted_sub_places (c : Nat) (exponent : Int) :
    adjusted (digits c) exponent - (scientificMantissa c).places = exponent := by
  have some := List.length_pos_iff.mpr (digits_ne_nil c)
  rw [places_scientificMantissa, adjusted]
  omega

end Numeral

namespace Fixed

open Numeral

theorem read?_text (fine : places ≤ finestPlaces) :
    ∃ n, read? (text d places).toList = some n ∧ n.value = (rounded d places).value := by
  by_cases writtenOut : IsWrittenOut (rounded d places)
  · have writes := writes_fixedMantissa (rounded d places).coefficient places.toNat
    have read := writes.read?_of_readSign (readSign_signText
      (d.negative && (rounded d places).coefficient != 0) writes)
    rw [List.append_nil] at read
    rw [toList_text_of_isWrittenOut fine writtenOut, read]
    refine ⟨_, rfl, (value_fixedMantissa _ _ _).trans ?_⟩
    have exponent : -places ≤ 0 := writtenOut.1
    rw [Int.toNat_of_nonneg (by omega)]
    rfl
  · have writes := writes_scientificMantissa (rounded d places).coefficient
      (adjusted (digits (rounded d places).coefficient) (-places))
    rw [toList_text_of_not_isWrittenOut fine writtenOut,
      writes.read?_of_readSign (readSign_signText d.negative writes),
      readExponent?_exponentText]
    refine ⟨_, rfl, ?_⟩
    dsimp only
    rw [digits_scientificMantissa, adjusted_sub_places]
    exact congrArg value (congrArg (Numeral.mk d.negative · (-places))
      (Address.digitsValue_toDigits _))

end Fixed

theorem displayNumber_eq_ok (finite : x.isFinite = true) (least : -330 < places)
    (most : places ≤ 999999) :
    displayNumber (.double x) places = .ok (Fixed.text (Dyadic.ofFloat x) places) := by
  have fine : places ≤ Fixed.finestPlaces := most.trans (by decide)
  have fits : Fixed.exceeds (Dyadic.ofFloat x) places (workingDigits places).toNat = false := by
    have digits : 330 + places ≤ (workingDigits places).toNat := by
      rw [workingDigits]
      omega
    rw [Fixed.exceeds, Fixed.shown_of_le fine]
    exact decide_eq_false (Nat.not_le.mpr (Fixed.coefficient_rounded_lt finite digits))
  have word : wordHolds (workingDigits places) = true := by
    rw [wordHolds, workingDigits, Bool.and_eq_true]
    exact ⟨decide_eq_true (by omega), decide_eq_true (by omega)⟩
  have valid : ¬ (workingDigits places < 1 ∨ mostDigits < workingDigits places) := by
    simp only [workingDigits, mostDigits]
    omega
  have coarse : ¬ mostPlaces < places := by
    rw [mostPlaces]
    omega
  simp only [displayNumber, Number.toFloat, Number.toDyadic, Except.bind, finite, word,
    if_neg valid, if_neg coarse, fits]
  rfl

/-- Numbers are shown exactly: the text of a finite double is read as the multiple of the unit
    nearest to it, a tie going away from zero, and has no more digits than are worked with. -/
theorem displayNumber_rounds (finite : x.isFinite = true) (least : -330 < places)
    (most : places ≤ 999999) :
    ∃ text n, displayNumber (.double x) places = .ok text ∧ Numeral.read? text.toList = some n ∧
      (∀ r, RoundsTo (10 ^ (-places)) (Dyadic.ofFloat x).value r ↔ r = n.value) ∧
      ∃ k : ℤ, n.value = k * 10 ^ (-places) ∧ k.natAbs < 10 ^ (330 + places).toNat := by
  obtain ⟨n, read, value⟩ := Fixed.read?_text (d := Dyadic.ofFloat x)
    (most.trans (by decide : (999999 : Int) ≤ Fixed.finestPlaces))
  have rounds := Fixed.roundsTo_rounded (Dyadic.ofFloat x) places
  refine ⟨_, n, displayNumber_eq_ok finite least most, read, fun r => ?_, ?_⟩
  · rw [value]
    refine ⟨fun other => other.eq rounds, ?_⟩
    rintro rfl
    exact rounds
  · have digits := Fixed.coefficient_rounded_lt finite
      (Int.self_le_toNat (330 + places))
    obtain ⟨k, multiple, size⟩ := (Fixed.rounded (Dyadic.ofFloat x) places).exists_multiple
    exact ⟨k, value.trans multiple, size ▸ digits⟩

/-- An exact tie between two texts goes to the one further from zero. -/
theorem displayNumber_rounds_of_tie :
    displayNumber (.double 0.125) 2 = .ok "0.13" ∧
    ∃ text n, displayNumber (.double 0.125) 2 = .ok text ∧ Numeral.read? text.toList = some n ∧
      (∀ r, RoundsTo (10 ^ (-2 : ℤ)) (Dyadic.ofFloat 0.125).value r ↔ r = n.value) ∧
      ∃ k : ℤ, n.value = k * 10 ^ (-2 : ℤ) ∧ k.natAbs < 10 ^ (330 + 2 : ℤ).toNat :=
  ⟨by decide +kernel, displayNumber_rounds (by decide +kernel) (by decide) (by decide)⟩

end Spreadsheet
