import Spreadsheet.Decimal.Binary
import Spreadsheet.Proofs.Decimal.Finite

namespace Spreadsheet.Dyadic

open Float.Model Float.Model.UnpackedFloat

variable {bits : BitVec Format.binary64.numBits} {x : Float}

theorem toNat_unpackMantissa : (unpackMantissa bits).toNat = bits.toNat % Nat.pow 2 52 := by
  unfold unpackMantissa
  rw [BitVec.toNat_cast, BitVec.extractLsb_toNat, Nat.shiftRight_zero]
  rfl

theorem toNat_unpackExponent :
    (unpackExponent bits).toNat = bits.toNat / Nat.pow 2 52 % Nat.pow 2 11 := by
  unfold unpackExponent
  rw [BitVec.toNat_cast, BitVec.extractLsb_toNat, Nat.shiftRight_eq_div_pow]
  rfl

theorem toNat_unpackSign : (unpackSign bits).toNat = bits.toNat / Nat.pow 2 63 := by
  have bound : bits.toNat / 2 ^ 63 < 2 := Nat.div_lt_of_lt_mul bits.isLt
  unfold unpackSign
  rw [BitVec.toNat_cast, BitVec.extractLsb_toNat, Nat.shiftRight_eq_div_pow]
  exact Nat.mod_eq_of_lt bound

theorem toNat_hidden (b : BitVec 52) : (1#1 ++ b).toNat = 2 ^ 52 + b.toNat := by
  rw [BitVec.toNat_append, Nat.shiftLeft_eq, Nat.or_comm]
  change _ ||| 2 ^ 52 = _
  rw [Nat.or_two_pow_eq_add_of_lt b.isLt, Nat.add_comm]

theorem negative_unpackSign :
    (Sign.ofBitVec (unpackSign bits) == .negative) = decide (Nat.pow 2 63 ≤ bits.toNat) := by
  have sign : (unpackSign bits).toNat = bits.toNat / Nat.pow 2 63 := toNat_unpackSign
  unfold Sign.ofBitVec
  split
  · rename_i zero
    rw [zero, BitVec.toNat_ofNat, Nat.zero_mod, eq_comm, Nat.div_eq_zero_iff_lt (by decide)] at sign
    exact (decide_eq_false (Nat.not_le.mpr sign)).symm
  · rename_i some
    refine (decide_eq_true (Nat.le_of_not_lt fun low => some ?_)).symm
    rw [Nat.div_eq_of_lt low] at sign
    exact BitVec.eq_of_toNat_eq sign

/-- The sign, the mantissa and the exponent that the bits of a finite double stand for. -/
def ofUnpacked? : UnpackedFloat → Option Dyadic
  | .zero s => some ⟨s == .negative, 0, -1074⟩
  | .finite s m e _ => some ⟨s == .negative, m, e⟩
  | _ => none

theorem ofUnpacked?_unpack (finite : x.isFinite = true) :
    ofUnpacked? x.toModel.unpack = some (ofFloat x) := by
  have whole : x.toBits.toNat = x.toModel.toBits.toBitVec.toNat := rfl
  have notAll := (@Double.isFinite_unpack Format.binary64 _).mp finite
  unfold ofFloat Float.Model.unpack
  rw [whole]
  generalize x.toModel.toBits.toBitVec = b at notAll ⊢
  unfold UnpackedFloat.unpack
  dsimp only
  rw [if_neg notAll, ← toNat_unpackExponent, ← toNat_unpackMantissa, ← negative_unpackSign]
  split
  · rename_i least
    have zero : (@unpackExponent Format.binary64 b).toNat = 0 := congrArg BitVec.toNat least
    rw [if_pos zero]
    split
    · rename_i none
      have empty : (@unpackMantissa Format.binary64 b).toNat = 0 := congrArg BitVec.toNat none
      rw [empty]
      rfl
    · rw [zero]
      rfl
  · rename_i normal
    have other : (@unpackExponent Format.binary64 b).toNat ≠ 0 :=
      fun zero => normal (BitVec.eq_of_toNat_eq zero)
    rw [if_neg other]
    change _ = some (⟨_, 2 ^ 52 + _, _⟩ : Dyadic)
    rw [← toNat_hidden]
    rfl

theorem bounds_ofFloat (finite : x.isFinite = true) :
    (ofFloat x).mantissa < 2 ^ 53 ∧ (ofFloat x).exponent ≤ 971 := by
  have bounded := Double.bounded_unpack finite
  have fields := ofUnpacked?_unpack finite
  cases unpacked : x.toModel.unpack with
  | notANumber | infinity =>
    rw [unpacked] at fields
    cases fields
  | zero s =>
    rw [unpacked] at fields
    rw [← Option.some.inj fields]
    exact ⟨Nat.two_pow_pos 53, (by decide : (-1074 : Int) ≤ 971)⟩
  | finite s m e positive =>
    rw [unpacked] at fields bounded
    rw [← Option.some.inj fields]
    exact bounded

theorem least_le_exponent (x : Float) : -1074 ≤ (ofFloat x).exponent := by
  unfold ofFloat
  dsimp only
  split
  · exact le_rfl
  · dsimp only
    omega

theorem two_pow_lt {k n digits : Nat} (some : n ≠ 0) (small : k ≤ 128 * n)
    (wide : 39 * n ≤ digits) : 2 ^ k < 10 ^ digits :=
  calc 2 ^ k ≤ 2 ^ (128 * n) := Nat.pow_le_pow_right (by decide) small
    _ = (2 ^ 128) ^ n := Nat.pow_mul 2 128 n
    _ < (10 ^ 39) ^ n := Nat.pow_lt_pow_left (by decide) some
    _ = 10 ^ (39 * n) := (Nat.pow_mul 10 39 n).symm
    _ ≤ 10 ^ digits := Nat.pow_le_pow_right (by decide) wide

theorem numerator_lt {digits : Nat} (finite : x.isFinite = true) (wide : 312 ≤ digits) :
    (ofFloat x).numerator < 10 ^ digits * (ofFloat x).denominator := by
  obtain ⟨mantissa, exponent⟩ := bounds_ofFloat finite
  calc (ofFloat x).mantissa * 2 ^ (ofFloat x).exponent.toNat
      < 2 ^ 53 * 2 ^ (ofFloat x).exponent.toNat :=
        Nat.mul_lt_mul_of_pos_right mantissa (Nat.two_pow_pos _)
    _ = 2 ^ (53 + (ofFloat x).exponent.toNat) := (Nat.pow_add 2 53 _).symm
    _ ≤ 10 ^ digits := (two_pow_lt (by decide : 8 ≠ 0) (by omega) wide).le
    _ ≤ 10 ^ digits * (ofFloat x).denominator := Nat.le_mul_of_pos_right _ (denominator_pos _)

end Spreadsheet.Dyadic
