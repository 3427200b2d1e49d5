import ExactNeighbors.Proofs.Number.Rounding
import ExactNeighbors.Proofs.Number.Sum

/-! # Finite scores in their one form

A score that is neither zero, infinite nor NaN has exactly one mantissa and exponent with the
leading digit in place. Packing them and taking the score apart again gives them back; an exponent
that is too large becomes infinity.
-/
namespace ExactNeighbors.Score

open Float.Model (Format UnpackedFloat)
open Float.Model.UnpackedFloat
open Rounding (Canonical)

variable {x : Score} {sign : Sign} {m : Nat} {e : Int}

theorem canonical_of_unpacked {hm : 0 < m} (h : unpacked x = .finite sign m e hm) :
    Canonical m e ∧ e ≤ 104 := by
  change UnpackedFloat.unpack Format.binary32 x.toBits.toBitVec = _ at h
  generalize x.toBits.toBitVec = b at h
  have hfraction : (@unpackMantissa Format.binary32 b).toNat < 2 ^ 23 := BitVec.isLt _
  have hexponent : (@unpackExponent Format.binary32 b).toNat < 2 ^ 8 := BitVec.isLt _
  have hbias : (Format.binary32.exponentBias + (23 : Nat) : Int) = 150 := rfl
  unfold UnpackedFloat.unpack at h
  dsimp only at h
  rw [hbias] at h
  split at h
  · split at h
    · cases h
    · cases h
  · rename_i hinf
    have hne : (@unpackExponent Format.binary32 b).toNat ≠ 255 :=
      fun heq => hinf (BitVec.eq_of_toNat_eq heq)
    split at h
    · rename_i hzero
      split at h
      · cases h
      · rename_i hpos
        have hpos' : (@unpackMantissa Format.binary32 b).toNat ≠ 0 :=
          fun heq => hpos (BitVec.eq_of_toNat_eq heq)
        cases h
        rw [hzero]
        exact ⟨⟨by omega, by omega, by simp, by simp⟩, by simp⟩
    · rename_i hzero
      have hne' : (@unpackExponent Format.binary32 b).toNat ≠ 0 :=
        fun heq => hzero (BitVec.eq_of_toNat_eq heq)
      cases h
      rw [toNat_leading]
      exact ⟨⟨by omega, by omega, by omega, by omega⟩, by omega⟩

theorem unpacked_packed_eq (u : UnpackedFloat) :
    unpacked (packed u) = UnpackedFloat.unpack Format.binary32 (UnpackedFloat.pack Format.binary32 u) :=
  rfl

theorem unpackSign_packComponents (sign : Sign) (exponent : BitVec 8) (mantissa : BitVec 23) :
    Sign.ofBitVec (unpackSign (packComponents Format.binary32 sign exponent mantissa)) = sign := by
  have hsign : ∀ b : BitVec 1, b.toNat = sign.toBitVec.toNat → Sign.ofBitVec b = sign := by
    intro b hb
    rw [BitVec.eq_of_toNat_eq hb]
    cases sign <;> rfl
  have hexponent : exponent.toNat < 2 ^ 8 := exponent.isLt
  have hmantissa : mantissa.toNat < 2 ^ 23 := mantissa.isLt
  have hbit : sign.toBitVec.toNat < 2 := sign.toBitVec.isLt
  apply hsign
  rw [toNat_unpackSign, toNat_packComponents]
  omega

theorem unpack_normal {exponent : BitVec 8} (hinf : exponent ≠ -1#8) (hzero : exponent ≠ 0#8)
    (sign : Sign) (mantissa : BitVec 23) :
    ∃ hm, UnpackedFloat.unpack Format.binary32
        (packComponents Format.binary32 sign exponent mantissa) =
      .finite sign (2 ^ 23 + mantissa.toNat) (exponent.toNat - 150) hm := by
  refine ⟨by omega, ?_⟩
  unfold UnpackedFloat.unpack
  simp only [unpackExponent_packComponents, unpackMantissa_packComponents,
    unpackSign_packComponents, toNat_leading]
  rw [if_neg hinf, if_neg hzero]
  rfl

theorem unpack_subnormal {mantissa : BitVec 23} (hpos : 0 < mantissa.toNat) (sign : Sign) :
    UnpackedFloat.unpack Format.binary32 (packComponents Format.binary32 sign 0#8 mantissa) =
      .finite sign mantissa.toNat (-149) hpos := by
  have hne : mantissa ≠ 0#23 := by
    rintro rfl
    exact Nat.lt_irrefl 0 hpos
  unfold UnpackedFloat.unpack
  simp only [unpackExponent_packComponents, unpackMantissa_packComponents,
    unpackSign_packComponents]
  rw [if_neg (by decide), if_pos trivial, dif_neg hne]
  rfl

/-- A number in its one form is kept, unless its exponent is too large. -/
theorem unpacked_packed (hc : Canonical m e) (he : e ≤ 104) :
    unpacked (packed (.finite sign m e hc.pos)) = .finite sign m e hc.pos := by
  have hbias : Format.binary32.exponentBias = 127 := rfl
  have hleast := hc.le_exponent
  have hlt := hc.lt
  have hpos := hc.pos
  rw [unpacked_packed_eq]
  unfold UnpackedFloat.pack
  dsimp only
  rw [hbias, if_neg (by omega)]
  by_cases hnormal : 2 ^ 23 ≤ m
  · have hlog : m.log2 = 23 := (Nat.log2_eq_iff (by omega)).mpr ⟨hnormal, hlt⟩
    have hbiased : (BitVec.ofNat 8 (e + (127 : Nat) + (23 : Nat)).toNat).toNat = (e + 150).toNat := by
      rw [BitVec.toNat_ofNat, Nat.mod_eq_of_lt (by omega)]
      omega
    have hfraction : (BitVec.ofNat 23 m).toNat = m - 2 ^ 23 := by
      rw [BitVec.toNat_ofNat]
      omega
    have hfinite : BitVec.ofNat 8 (e + (127 : Nat) + (23 : Nat)).toNat ≠ -1#8 := by
      intro h
      rw [h] at hbiased
      simp at hbiased
      omega
    have hleading : BitVec.ofNat 8 (e + (127 : Nat) + (23 : Nat)).toNat ≠ 0#8 := by
      intro h
      rw [h] at hbiased
      simp at hbiased
      omega
    obtain ⟨hm, hunpack⟩ := unpack_normal hfinite hleading sign (BitVec.ofNat 23 m)
    rw [if_pos (by rw [hlog]; rfl), hunpack]
    congr 1
    · omega
    · omega
  · have hlog : m.log2 < 23 := (Nat.log2_lt (by omega)).mpr (by omega)
    have hwidth : Format.binary32.mantissaBits = 24 := rfl
    have hfraction : (BitVec.ofNat 23 m).toNat = m := by
      rw [BitVec.toNat_ofNat, Nat.mod_eq_of_lt (by omega)]
    rw [if_neg (by omega), unpack_subnormal (by omega)]
    congr 1
    have hexponent := hc.leading
    omega

theorem packed_overflow (he : 104 < e) (hm : 0 < m) :
    packed (.finite sign m e hm) = packed (.infinity sign) := by
  have hbias : Format.binary32.exponentBias = 127 := rfl
  have hpack : UnpackedFloat.pack Format.binary32 (.finite sign m e hm) =
      UnpackedFloat.pack Format.binary32 (.infinity sign) := by
    unfold UnpackedFloat.pack
    dsimp only
    rw [hbias, if_pos (by omega)]
  apply eq_of_toBits_eq
  exact congrArg UInt32.ofBitVec hpack

end ExactNeighbors.Score
