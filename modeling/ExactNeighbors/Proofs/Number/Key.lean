import Mathlib
import ExactNeighbors.Number.Score

/-! # The place of a negated score

A binary32 number is a sign bit, eight bits of exponent and twenty-three of mantissa. Negating a
number turns its sign bit over, whatever the other fields hold, so that it mirrors the place of the
number in the total order. NaN is excluded: its sign is not kept.
-/
namespace ExactNeighbors.Score

open Float.Model (Format UnpackedFloat)
open Float.Model.UnpackedFloat

theorem toNat_packComponents (sign : Sign) (exponent : BitVec 8) (mantissa : BitVec 23) :
    (packComponents Format.binary32 sign exponent mantissa).toNat =
      (sign.toBitVec.toNat * 2 ^ 8 + exponent.toNat) * 2 ^ 23 + mantissa.toNat := by
  have hexponent : exponent.toNat < 2 ^ 8 := exponent.isLt
  have hmantissa : mantissa.toNat < 2 ^ 23 := mantissa.isLt
  simp only [packComponents, BitVec.toNat_append]
  rw [← Nat.shiftLeft_add_eq_or_of_lt hexponent, ← Nat.shiftLeft_add_eq_or_of_lt hmantissa,
    Nat.shiftLeft_eq, Nat.shiftLeft_eq]

theorem toNat_leading (mantissa : BitVec 23) :
    (1#1 ++ mantissa).toNat = 2 ^ 23 + mantissa.toNat := by
  rw [BitVec.toNat_append, ← Nat.shiftLeft_add_eq_or_of_lt mantissa.isLt]
  rfl

/-- A normal number has a leading one in front of its mantissa, which packing drops again. -/
theorem pack_normal (sign : Sign) {exponent : BitVec 8} (mantissa : BitVec 23)
    (hinf : exponent ≠ -1#8) (hpos : 0 < (1#1 ++ mantissa).toNat) :
    UnpackedFloat.pack Format.binary32 (.finite sign (1#1 ++ mantissa).toNat
      (exponent.toNat - ((127 : Nat) + (23 : Nat) : Int)) hpos) =
      packComponents Format.binary32 sign exponent mantissa := by
  have hmantissa : mantissa.toNat < 2 ^ 23 := mantissa.isLt
  have hexponent : exponent.toNat < 2 ^ 8 := exponent.isLt
  have hne : exponent.toNat ≠ 255 := fun h => hinf (BitVec.eq_of_toNat_eq h)
  have hlead := toNat_leading mantissa
  have hlog : (2 ^ 23 + mantissa.toNat).log2 = 23 := by
    rw [Nat.log2_eq_iff (by omega)]
    omega
  have hbias : Format.binary32.exponentBias = 127 := rfl
  have hbiased : ((exponent.toNat : Int) - ((127 : Nat) + (23 : Nat)) +
      Format.binary32.exponentBias + (23 : Nat)).toNat = exponent.toNat := by omega
  simp only [UnpackedFloat.pack, hlead, hlog, hbiased]
  rw [if_neg (by omega), if_pos (by decide)]
  congr 1
  · apply BitVec.eq_of_toNat_eq
    rw [BitVec.toNat_ofNat, Nat.mod_eq_of_lt hexponent]
  · apply BitVec.eq_of_toNat_eq
    rw [BitVec.toNat_ofNat]
    omega

theorem pack_subnormal (sign : Sign) {mantissa : BitVec 23} (hpos : 0 < mantissa.toNat) :
    UnpackedFloat.pack Format.binary32 (.finite sign mantissa.toNat
      (((0#8).toNat : Int) - ((127 : Nat) + (23 : Nat) : Int) + 1) hpos) =
      packComponents Format.binary32 sign 0#8 mantissa := by
  have hmantissa : mantissa.toNat < 2 ^ 23 := mantissa.isLt
  have hlog : mantissa.toNat.log2 < 23 := (Nat.log2_lt (by omega)).mpr hmantissa
  have hwidth : Format.binary32.mantissaBits = 24 := rfl
  simp only [UnpackedFloat.pack]
  rw [if_neg (by decide), if_neg (by omega)]
  congr 1
  apply BitVec.eq_of_toNat_eq
  rw [BitVec.toNat_ofNat, Nat.mod_eq_of_lt hmantissa]

def mapSign (f : Sign → Sign) : UnpackedFloat → UnpackedFloat
  | .notANumber => .notANumber
  | .infinity sign => .infinity (f sign)
  | .zero sign => .zero (f sign)
  | .finite sign mantissa exponent hm => .finite (f sign) mantissa exponent hm

/-- Packing a number that was unpacked, with whatever sign, keeps the other fields. -/
theorem pack_mapSign_unpack (f : Sign → Sign) (b : BitVec Format.binary32.numBits)
    (h : (UnpackedFloat.unpack Format.binary32 b).isNaN = false) :
    UnpackedFloat.pack Format.binary32 (mapSign f (UnpackedFloat.unpack Format.binary32 b)) =
      packComponents Format.binary32 (f (Sign.ofBitVec (unpackSign b))) (unpackExponent b)
        (unpackMantissa b) := by
  unfold UnpackedFloat.unpack at h ⊢
  dsimp only at h ⊢
  by_cases hinf : @unpackExponent Format.binary32 b = -1#8
  · rw [if_pos hinf] at h ⊢
    by_cases hm : @unpackMantissa Format.binary32 b = 0#23
    · rw [if_pos hm, hinf, hm]
      rfl
    · rw [if_neg hm] at h
      cases h
  · rw [if_neg hinf]
    by_cases hzero : @unpackExponent Format.binary32 b = 0#8
    · rw [if_pos hzero]
      by_cases hm : @unpackMantissa Format.binary32 b = 0#23
      · rw [dif_pos hm, hzero, hm]
        rfl
      · rw [dif_neg hm, hzero]
        exact pack_subnormal _ _
    · rw [if_neg hzero]
      exact pack_normal _ _ hinf _

theorem neg_eq_mapSign (u : UnpackedFloat) : u.neg = mapSign (-·) u := by
  cases u <;> rfl

theorem toNat_unpackSign (b : BitVec Format.binary32.numBits) :
    (unpackSign b).toNat = b.toNat / 2 ^ 31 % 2 := by
  simp [unpackSign, Nat.shiftRight_eq_div_pow]

theorem toNat_unpackExponent (b : BitVec Format.binary32.numBits) :
    (unpackExponent b).toNat = b.toNat / 2 ^ 23 % 2 ^ 8 := by
  simp [unpackExponent, Nat.shiftRight_eq_div_pow]

theorem toNat_unpackMantissa (b : BitVec Format.binary32.numBits) :
    (unpackMantissa b).toNat = b.toNat % 2 ^ 23 := by
  simp [unpackMantissa]

theorem toNat_neg_ofBitVec (sign : BitVec 1) :
    (-Sign.ofBitVec sign).toBitVec.toNat = 1 - sign.toNat := by
  revert sign
  decide

variable {x y : Score}

theorem toBits_neg (h : x.isNaN = false) :
    (-x).toBits.toNat =
      if x.toBits.toNat < 2 ^ 31 then x.toBits.toNat + 2 ^ 31 else x.toBits.toNat - 2 ^ 31 := by
  have hneg : (-x).toBits.toBitVec =
      UnpackedFloat.pack Format.binary32
        (UnpackedFloat.unpack Format.binary32 x.toBits.toBitVec).neg := rfl
  have hlt := x.toBits.toNat_lt
  rw [← UInt32.toNat_toBitVec, hneg, neg_eq_mapSign, pack_mapSign_unpack _ x.toBits.toBitVec h,
    toNat_packComponents, toNat_neg_ofBitVec, toNat_unpackSign, toNat_unpackExponent,
    toNat_unpackMantissa, UInt32.toNat_toBitVec]
  split <;> omega

theorem key_neg (h : x.isNaN = false) : key (-x) = -1 - key x := by
  have hlt := x.toBits.toNat_lt
  simp only [key, toBits_neg h]
  split <;> omega

theorem eq_of_toBits_eq (h : x.toBits = y.toBits) : x = y := by
  obtain ⟨⟨xbits, xvalid⟩⟩ := x
  obtain ⟨⟨ybits, yvalid⟩⟩ := y
  cases h
  rfl

theorem eq_of_key_eq (h : key x = key y) : x = y := by
  have hx := x.toBits.toNat_lt
  have hy := y.toBits.toNat_lt
  apply eq_of_toBits_eq
  apply UInt32.toNat_inj.mp
  simp only [key] at h
  split at h <;> split at h <;> omega

end ExactNeighbors.Score
