import Mathlib

namespace Spreadsheet.Double

open Float.Model Float.Model.UnpackedFloat

variable {m : Nat} {e : Int} {f : UnpackedFloat}

/-- Numbers whose exponent a finite double can have. -/
def Small : UnpackedFloat → Prop
  | .zero _ => True
  | .finite _ _ e _ => e ≤ 971
  | _ => False

theorem isFinite_unpack {spec : Format} (b : BitVec spec.numBits) :
    (UnpackedFloat.unpack spec b).isFinite = true ↔ unpackExponent b ≠ -1#_ := by
  unfold UnpackedFloat.unpack
  dsimp only
  split
  · rename_i infinite
    refine ⟨fun finite => ?_, fun other => absurd infinite other⟩
    split at finite <;> cases finite
  · rename_i finite
    refine ⟨fun _ => finite, fun _ => ?_⟩
    split
    · split <;> rfl
    · rfl

theorem isFinite_pack (h : Small f) : (Float.Model.pack f).unpack.isFinite = true := by
  refine (isFinite_unpack _).mpr ?_
  have bits : (Float.Model.pack f).toBits.toBitVec = UnpackedFloat.pack Format.binary64 f := rfl
  rw [bits]
  cases f with
  | notANumber | infinity => cases h
  | zero s =>
    rw [UnpackedFloat.pack, packedZero, unpackExponent_packComponents]
    decide
  | finite s m e positive =>
    have small : e ≤ 971 := h
    have biased : (e + Format.binary64.exponentBias + 52).toNat ≤ 2046 := by
      have bias : Format.binary64.exponentBias = 1023 := rfl
      omega
    unfold UnpackedFloat.pack
    dsimp only
    rw [if_neg (by omega)]
    split
    · rw [unpackExponent_packComponents]
      intro all
      have same := congrArg BitVec.toNat all
      rw [BitVec.toNat_ofNat, Nat.mod_eq_of_lt (by omega)] at same
      have top : (-1#11 : BitVec 11).toNat = 2047 := rfl
      omega
    · rw [unpackExponent_packComponents]
      decide

/-- Numbers whose mantissa and exponent a finite double can have. -/
def Bounded : UnpackedFloat → Prop
  | .zero _ => True
  | .finite _ m e _ => m < 2 ^ 53 ∧ e ≤ 971
  | _ => False

theorem bounded_unpack {x : Float.Model} (h : x.unpack.isFinite = true) : Bounded x.unpack := by
  have finite := (isFinite_unpack _).mp h
  unfold Float.Model.unpack UnpackedFloat.unpack
  dsimp only
  have bias : Format.binary64.exponentBias = 1023 := rfl
  rw [if_neg finite]
  split
  · rename_i zero
    split
    · trivial
    · refine ⟨Nat.lt_trans (BitVec.isLt _) (by decide), ?_⟩
      rw [zero]
      simp
      omega
  · refine ⟨BitVec.isLt _, ?_⟩
    have bound : (@unpackExponent Format.binary64 x.toBits.toBitVec).toNat < 2048 :=
      BitVec.isLt _
    have below : (@unpackExponent Format.binary64 x.toBits.toBitVec).toNat ≠ 2047 :=
      fun all => finite (BitVec.eq_of_toNat_eq all)
    omega

theorem Bounded.neg (h : Bounded f) : Small f.neg := by
  cases f with
  | notANumber | infinity => cases h
  | zero s => trivial
  | finite s m e positive => exact h.2

theorem isFinite_neg {x : Float} (h : x.isFinite = true) : (-x).isFinite = true := by
  have neg : (-x).isFinite = (Float.Model.pack x.toModel.unpack.neg).unpack.isFinite := rfl
  rw [neg]
  exact isFinite_pack (bounded_unpack h).neg

end Spreadsheet.Double
