import Spreadsheet.Proofs.Decimal.Binary

namespace Spreadsheet.Double

open Float.Model Float.Model.UnpackedFloat

variable {m : Nat} {e : Int} {s : Sign} {f : UnpackedFloat} {x : Float.Model}

/-- The forms of finite doubles: the mantissa has 53 digits, or the exponent is the least one. -/
def Canonical : UnpackedFloat → Prop
  | .zero _ => True
  | .finite _ m e _ => m < 2 ^ 53 ∧ -1074 ≤ e ∧ (2 ^ 52 ≤ m ∨ e = -1074)
  | _ => False

theorem canonical_unpack (finite : x.unpack.isFinite = true) : Canonical x.unpack := by
  have some := (isFinite_unpack _).mp finite
  have bias : (Format.binary64.exponentBias : Int) = 1023 := rfl
  unfold Float.Model.unpack UnpackedFloat.unpack
  dsimp only
  rw [if_neg some]
  split
  · rename_i least
    split
    · trivial
    · have zero : (@unpackExponent Format.binary64 x.toBits.toBitVec).toNat = 0 :=
        congrArg BitVec.toNat least
      refine ⟨Nat.lt_trans (BitVec.isLt _) (by decide), ?_, .inr ?_⟩ <;> omega
  · rename_i normal
    have other : (@unpackExponent Format.binary64 x.toBits.toBitVec).toNat ≠ 0 :=
      fun zero => normal (BitVec.eq_of_toNat_eq zero)
    refine ⟨BitVec.isLt _, by omega, .inl ?_⟩
    exact (Nat.le_add_right _ _).trans (Dyadic.toNat_hidden _).ge

theorem unpackSign_packComponents {spec : Format} {exponent mantissa} :
    unpackSign (packComponents spec s exponent mantissa) = s.toBitVec := by
  apply BitVec.eq_of_getLsbD_eq
  intro i small
  have zero : i = 0 := by omega
  subst zero
  simp [unpackSign, packComponents, BitVec.getLsbD_append, BitVec.getElem_append]

theorem ofBitVec_toBitVec : Sign.ofBitVec s.toBitVec = s := by cases s <;> rfl

theorem unpack_normal {b : Nat} (some : 0 < b) (small : b < 2047) (least : 2 ^ 52 ≤ m)
    (most : m < 2 ^ 53) (positive : 0 < m) :
    UnpackedFloat.unpack Format.binary64
        (packComponents _ s (BitVec.ofNat 11 b) (BitVec.ofNat 52 m)) =
      .finite s m (b - 1075) positive := by
  have exponent : (BitVec.ofNat 11 b).toNat = b := by
    rw [BitVec.toNat_ofNat, Nat.mod_eq_of_lt (by omega)]
  have notAll : BitVec.ofNat 11 b ≠ -1#_ := by
    intro all
    have same : b = 2047 := exponent.symm.trans (congrArg BitVec.toNat all)
    omega
  have notZero : BitVec.ofNat 11 b ≠ 0#_ := by
    intro zero
    have same : b = 0 := exponent.symm.trans (congrArg BitVec.toNat zero)
    omega
  have hidden := Dyadic.toNat_hidden (BitVec.ofNat 52 m)
  rw [BitVec.toNat_ofNat] at hidden
  unfold UnpackedFloat.unpack
  simp only [unpackMantissa_packComponents, unpackExponent_packComponents,
    unpackSign_packComponents, ofBitVec_toBitVec, if_neg notAll, if_neg notZero]
  congr 1
  · omega
  · rw [exponent]
    rfl

theorem unpack_subnormal (positive : 0 < m) (most : m < 2 ^ 52) :
    UnpackedFloat.unpack Format.binary64 (packComponents _ s 0#11 (BitVec.ofNat 52 m)) =
      .finite s m (-1074) positive := by
  have low : (BitVec.ofNat 52 m).toNat = m := by
    rw [BitVec.toNat_ofNat, Nat.mod_eq_of_lt most]
  have some : BitVec.ofNat 52 m ≠ 0#_ := by
    intro zero
    have same : m = 0 := low.symm.trans (congrArg BitVec.toNat zero)
    omega
  unfold UnpackedFloat.unpack
  simp only [unpackMantissa_packComponents, unpackExponent_packComponents,
    unpackSign_packComponents, ofBitVec_toBitVec]
  rw [if_neg (by decide), if_pos trivial, dif_neg some]
  congr 1

theorem unpack_pack (canonical : Canonical f) (small : Small f) :
    (Float.Model.pack f).unpack = f := by
  have bits : (Float.Model.pack f).toBits.toBitVec = UnpackedFloat.pack Format.binary64 f := rfl
  rw [Float.Model.unpack, bits]
  cases f with
  | notANumber | infinity => cases canonical
  | zero s => cases s <;> rfl
  | finite s m e positive =>
    obtain ⟨most, least, normal⟩ := canonical
    have top : e ≤ 971 := small
    have bias : (Format.binary64.exponentBias : Int) = 1023 := rfl
    have mantissaBits : Format.binary64.mantissaBits = 52 + 1 := rfl
    have digits := (Nat.log2_lt positive.ne').mpr most
    unfold UnpackedFloat.pack
    dsimp only
    rw [if_neg (by omega), mantissaBits]
    by_cases whole : 2 ^ 52 ≤ m
    · have log := (Nat.le_log2 positive.ne').mpr whole
      rw [if_pos (by omega), unpack_normal (by omega) (by omega) whole most positive]
      congr 1
      omega
    · have log := (Nat.log2_lt positive.ne').mpr (not_le.mp whole)
      rw [if_neg (by omega), unpack_subnormal positive (not_le.mp whole),
        normal.resolve_left whole]

theorem isFinite_pack_eq_false (positive : 0 < m) (large : 971 < e) :
    (Float.Model.pack (.finite s m e positive)).unpack.isFinite = false := by
  rw [← Bool.not_eq_true, Float.Model.unpack, isFinite_unpack, not_not]
  have bias : (Format.binary64.exponentBias : Int) = 1023 := rfl
  change unpackExponent (UnpackedFloat.pack Format.binary64 _) = _
  unfold UnpackedFloat.pack
  dsimp only
  rw [if_pos (by omega), packedInfinity, unpackExponent_packComponents]

end Spreadsheet.Double
