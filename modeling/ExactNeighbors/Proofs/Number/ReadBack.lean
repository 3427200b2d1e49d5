import ExactNeighbors.Number.Text
import ExactNeighbors.Proofs.Number.Canonical
import ExactNeighbors.Proofs.Number.Digits
import ExactNeighbors.Proofs.Number.Shortest

/-! # A score reads back from its text

A product or quotient of exact numbers is rounded once, so that a numeral in the rounding interval
of a score becomes that score, also on the short way through a table of exact powers of ten. The
shortest decimal is such a numeral.
-/
namespace ExactNeighbors

open Float.Model (Format UnpackedFloat totalExponent)
open Float.Model.UnpackedFloat
open Decimal (Interval)

namespace Rounding

variable {m m₁ m₂ n : Nat} {e e₁ e₂ k : Int}

theorem mul_eq (hc : Canonical m e) (h₁ : 0 < m₁) (h₂ : 0 < m₂) (hlong : 2 ^ 23 ≤ m₁ * m₂)
    (hv : (Interval.of m e (narrowBelow m e)).Contains (m₁ * 2 ^ e₁ * (m₂ * 2 ^ e₂))) :
    UnpackedFloat.mul Format.binary32 (.finite .positive m₁ e₁ h₁) (.finite .positive m₂ e₂ h₂) =
      .finite .positive m e hc.pos := by
  have hlog : 23 ≤ (m₁ * m₂).log2 := (Nat.le_log2 (by omega)).mpr hlong
  have hgiven : Given (m₁ * m₂) (e₁ + e₂) .exact ((m₁ * m₂ : Nat) * 2 ^ (e₁ + e₂)) := by
    apply given_exact
    rw [targetExponent_eq, totalExponent]
    omega
  have hvalue : ((m₁ * m₂ : Nat) : ℚ) * 2 ^ (e₁ + e₂) = m₁ * 2 ^ e₁ * (m₂ * 2 ^ e₂) := by
    rw [zpow_add₀ two_ne_zero]
    push_cast
    ring
  exact (hvalue ▸ hgiven).roundWithAccuracy_eq hc hv .positive

theorem div_eq (hc : Canonical m e) (h₁ : 0 < m₁) (h₂ : 0 < m₂)
    (hv : (Interval.of m e (narrowBelow m e)).Contains (m₁ * 2 ^ e₁ / (m₂ * 2 ^ e₂))) :
    UnpackedFloat.div Format.binary32 (.finite .positive m₁ e₁ h₁) (.finite .positive m₂ e₂ h₂) =
      .finite .positive m e hc.pos :=
  (given_divCore h₁.ne' h₂.ne').roundWithAccuracy_eq hc hv .positive

/-- Every number rounds to itself. -/
theorem contains_self (hm : 0 < m) (narrow : Bool) : (Interval.of m e narrow).Contains (m * 2 ^ e) := by
  have hpos : (0 : ℚ) < 2 ^ (e - 2) := by positivity
  have hexponent : (Interval.of m e narrow).exponent = e - 2 := rfl
  have hlow : ((Interval.of m e narrow).low : ℚ) < 4 * m := by
    exact_mod_cast Interval.low_lt_value hm
  have hvalue : (m : ℚ) * 2 ^ e = 4 * m * 2 ^ (e - 2) := by
    rw [zpow_sub_two]
    ring
  rw [hvalue]
  apply Interval.contains_of_lt
  · rw [hexponent]
    exact mul_lt_mul_of_pos_right hlow hpos
  · rw [Interval.high_of, hexponent]
    exact mul_lt_mul_of_pos_right (by linarith) hpos

/-- The long way: any numeral, unless its exponent is far out. -/
theorem ofScientific_eq (hc : Canonical m e) (hn : 0 < n) (hlow : -200 ≤ k) (hhigh : k ≤ 200)
    (hv : (Interval.of m e (narrowBelow m e)).Contains (n * 10 ^ k)) :
    UnpackedFloat.ofScientific Format.binary32 n k = .finite .positive m e hc.pos := by
  have hwidth : (2 : Int) ^ Format.binary32.exponentBits = 256 := rfl
  have hbits : Format.binary32.mantissaBits = 24 := rfl
  unfold UnpackedFloat.ofScientific
  rw [dif_neg hn.ne', hwidth, if_neg (by omega), if_neg (by omega)]
  split
  · rename_i hk
    have hlong : 2 ^ 23 ≤ n <<< 24 * 10 ^ k.toNat := by
      rw [Nat.shiftLeft_eq]
      have hpow : 0 < 10 ^ k.toNat := Nat.pow_pos (by decide)
      nlinarith
    have hvalue : ((n <<< 24 : Nat) : ℚ) * 2 ^ (-24 : Int) * ((10 ^ k.toNat : Nat) * 2 ^ (0 : Int)) =
        n * 10 ^ k := by
      have hpow : (10 : ℚ) ^ k = 10 ^ k.toNat := by
        rw [← zpow_natCast, Int.toNat_of_nonneg hk]
      rw [cast_shiftLeft, mul_assoc (n : ℚ), ← zpow_add₀ two_ne_zero, hpow]
      simp
    rw [← hvalue] at hv
    exact mul_eq hc _ _ hlong hv
  · rename_i hk
    have hvalue : (n : ℚ) * 2 ^ (0 : Int) / ((10 ^ (-k).toNat : Nat) * 2 ^ (0 : Int)) = n * 10 ^ k := by
      have hpow : (10 : ℚ) ^ k = (10 ^ (-k).toNat)⁻¹ := by
        rw [← zpow_natCast, ← zpow_neg, Int.toNat_of_nonneg (by omega), neg_neg]
      rw [hpow]
      simp [div_eq_mul_inv]
    rw [← hvalue] at hv
    exact div_eq hc _ _ hv

end Rounding

namespace Score

open Rounding

variable {n m : Nat} {e k : Int}

/-- Moving the leading digit of a short number into its place makes it canonical. -/
theorem canonical_shiftLeft (hn : 0 < n) (hlt : n < 2 ^ 23) :
    2 ^ 23 ≤ n <<< (23 - n.log2) ∧
      Canonical (n <<< (23 - n.log2)) (-(23 - n.log2 : Nat)) := by
  have hshort : n.log2 < 23 := (Nat.log2_lt hn.ne').mpr hlt
  have hlead : 2 ^ 23 ≤ n <<< (23 - n.log2) := by
    rw [Nat.shiftLeft_eq]
    calc 2 ^ 23 = 2 ^ n.log2 * 2 ^ (23 - n.log2) := by
          rw [← Nat.pow_add]
          congr 1
          omega
      _ ≤ n * 2 ^ (23 - n.log2) := Nat.mul_le_mul_right _ (Nat.log2_self_le hn.ne')
  have hlong : n <<< (23 - n.log2) < 2 ^ 24 := by
    rw [Nat.shiftLeft_eq]
    calc n * 2 ^ (23 - n.log2) < 2 ^ (n.log2 + 1) * 2 ^ (23 - n.log2) :=
          Nat.mul_lt_mul_of_pos_right Nat.lt_log2_self (by positivity)
      _ = 2 ^ 24 := by
          rw [← Nat.pow_add]
          congr 1
          omega
  exact ⟨hlead, by omega, hlong, by omega, Or.inl hlead⟩

/-- A short whole number is a score, with its leading digit in place. -/
theorem exists_unpacked_ofNat (hn : 0 < n) (hlt : n < 2 ^ 23) :
    ∃ (m : Nat) (e : Int) (hm : 0 < m), 2 ^ 23 ≤ m ∧ (m : ℚ) * 2 ^ e = n ∧
      unpacked n.toUInt64.toFloat32 = .finite .positive m e hm := by
  obtain ⟨hlead, hc⟩ := canonical_shiftLeft hn hlt
  have hshort : n.log2 < 23 := (Nat.log2_lt hn.ne').mpr hlt
  have hvalue : ((n <<< (23 - n.log2) : Nat) : ℚ) * 2 ^ (-(23 - n.log2 : Nat) : Int) = n := by
    rw [cast_shiftLeft, mul_assoc, ← zpow_add₀ two_ne_zero]
    simp
  refine ⟨_, _, hc.pos, hlead, hvalue, ?_⟩
  obtain ⟨m₀, e₀, hgiven, hround⟩ := exists_round (e := 0) hn.ne'
  have hcontains := contains_self (e := -(23 - n.log2 : Nat)) hc.pos
    (narrowBelow (n <<< (23 - n.log2)) (-(23 - n.log2 : Nat)))
  rw [hvalue] at hcontains
  rw [zpow_zero, mul_one] at hgiven
  have hfinite := (hround .positive).trans (hgiven.roundWithAccuracy_eq hc hcontains .positive)
  have hnat : n.toUInt64.toNat = n := UInt64.toNat_ofNat_of_lt' (hlt.trans (by decide))
  have hnormalize : UnpackedFloat.normalize Format.binary32 n.toUInt64.toNat 0 .positive =
      .finite .positive (n <<< (23 - n.log2)) (-(23 - n.log2 : Nat)) hc.pos := by
    rw [hnat, UnpackedFloat.normalize, compare_gt_iff_gt.mpr (by omega)]
    exact hfinite
  have hpacked : n.toUInt64.toFloat32 =
      packed (UnpackedFloat.normalize Format.binary32 n.toUInt64.toNat 0 .positive) := rfl
  rw [hpacked, hnormalize, unpacked_packed hc (by omega)]

/-- The table of short powers of ten is exact. -/
theorem exists_unpacked_power (hn : n < Float32.exactlyRepresentablePowersOfTen.size) :
    ∃ (m : Nat) (e : Int) (hm : 0 < m), (m : ℚ) * 2 ^ e = 10 ^ n ∧
      unpacked Float32.exactlyRepresentablePowersOfTen[n] = .finite .positive m e hm := by
  have hshort : n < 11 := hn
  have hm : 0 < 10 ^ n * 2 ^ 23 / 2 ^ (n * 3322 / 1000) := by interval_cases n <;> decide
  refine ⟨_, (n * 3322 / 1000 : Nat) - 23, hm, by interval_cases n <;> norm_num, ?_⟩
  -- Looked up without a bound, the entries are closed terms.
  have hentry : Float32.exactlyRepresentablePowersOfTen[n]?.map unpacked =
      some (.finite .positive _ ((n * 3322 / 1000 : Nat) - 23) hm) := by
    interval_cases n <;> rfl
  rw [Array.getElem?_eq_getElem hn] at hentry
  exact Option.some.inj hentry

/-- Both ways of reading a numeral round it once. -/
theorem ofScientific_eq (hc : Canonical m e) (hn : 0 < n) (hlow : -200 ≤ k) (hhigh : k ≤ 0)
    (hv : (Interval.of m e (narrowBelow m e)).Contains (n * 10 ^ k)) :
    (OfScientific.ofScientific n (k < 0) k.natAbs : Score) =
      packed (.finite .positive m e hc.pos) := by
  change Float32.ofScientific n (k < 0) k.natAbs = _
  unfold Float32.ofScientific
  split
  · rename_i hshort
    obtain ⟨m₁, e₁, hm₁, hlong, hvalue₁, hunpacked₁⟩ := exists_unpacked_ofNat hn hshort.1
    obtain ⟨m₂, e₂, hm₂, hvalue₂, hunpacked₂⟩ := exists_unpacked_power (Nat.lt_succ_of_le hshort.2)
    split
    · have hpow : (10 : ℚ) ^ k = (10 ^ k.natAbs)⁻¹ := by
        rw [← zpow_natCast, ← zpow_neg]
        congr 1
        omega
      have hquotient : (n : ℚ) * 10 ^ k = m₁ * 2 ^ e₁ / (m₂ * 2 ^ e₂) := by
        rw [hpow, hvalue₁, hvalue₂, div_eq_mul_inv]
      rw [hquotient] at hv
      exact congrArg packed ((congrArg₂ (UnpackedFloat.div Format.binary32) hunpacked₁
        hunpacked₂).trans (div_eq hc hm₁ hm₂ hv))
    · rename_i hnot
      obtain rfl : k = 0 := by
        have hge : ¬k < 0 := by simpa using hnot
        omega
      have hproduct : (n : ℚ) * 10 ^ (0 : Int) = m₁ * 2 ^ e₁ * (m₂ * 2 ^ e₂) := by
        rw [hvalue₁, hvalue₂, Int.natAbs_zero, zpow_zero, pow_zero]
      rw [hproduct] at hv
      exact congrArg packed ((congrArg₂ (UnpackedFloat.mul Format.binary32) hunpacked₁
        hunpacked₂).trans (mul_eq hc hm₁ hm₂ (hlong.trans (Nat.le_mul_of_pos_right m₁ hm₂)) hv))
  · have hexponent : (if decide (k < 0) = true then Int.negOfNat k.natAbs else Int.ofNat k.natAbs) = k := by
      by_cases hk : k < 0
      · simp only [hk, decide_true, if_true, Int.negOfNat_eq, Int.ofNat_eq_natCast]
        omega
      · simp only [hk, decide_false, Bool.false_eq_true, if_false, Int.ofNat_eq_natCast]
        omega
    rw [hexponent]
    exact congrArg packed (Rounding.ofScientific_eq hc hn hlow (by omega) hv)

def binary : UnpackedFloat → Binary
  | .notANumber => .nan
  | .infinity sign => .infinite (sign == .negative)
  | .zero sign => .finite (sign == .negative) 0 (-149) false
  | .finite sign m e _ => .finite (sign == .negative) m e (narrowBelow m e)

theorem decide_negative (b : BitVec Format.binary32.numBits) :
    (Sign.ofBitVec (unpackSign b) == .negative) = decide (b.toNat / 2 ^ 31 % 2 = 1) := by
  have hbit : ∀ s : BitVec 1, (Sign.ofBitVec s == .negative) = decide (s.toNat = 1) := by decide
  rw [hbit, toNat_unpackSign]

theorem ofBits_eq (b : BitVec Format.binary32.numBits) :
    Binary.ofBits 23 8 b.toNat = binary (UnpackedFloat.unpack Format.binary32 b) := by
  have hbias : (Format.binary32.exponentBias + (23 : Nat) : Int) = 150 := rfl
  have hleading := toNat_leading (unpackMantissa b)
  have hsign : decide (b.toNat / 2 ^ (23 + 8) % 2 = 1) =
      (Sign.ofBitVec (unpackSign b) == .negative) := (decide_negative b).symm
  have hfraction : (@unpackMantissa Format.binary32 b).toNat = 0 ↔
      @unpackMantissa Format.binary32 b = 0#23 := @BitVec.toNat_inj 23 _ 0#23
  have hones : (@unpackExponent Format.binary32 b).toNat = 2 ^ 8 - 1 ↔
      @unpackExponent Format.binary32 b = -1#8 := @BitVec.toNat_inj 8 _ (-1#8)
  have hzeros : (@unpackExponent Format.binary32 b).toNat = 0 ↔
      @unpackExponent Format.binary32 b = 0#8 := @BitVec.toNat_inj 8 _ 0#8
  unfold UnpackedFloat.unpack Binary.ofBits
  simp only [Nat.pow_eq, ← toNat_unpackMantissa, ← toNat_unpackExponent, hsign, hfraction, hones,
    hzeros]
  by_cases hinf : @unpackExponent Format.binary32 b = -1#8
  · rw [if_pos hinf, if_pos hinf]
    by_cases hm : @unpackMantissa Format.binary32 b = 0#23
    · rw [if_pos hm, if_pos hm]
      rfl
    · rw [if_neg hm, if_neg hm]
      rfl
  · rw [if_neg hinf, if_neg hinf]
    by_cases hzero : @unpackExponent Format.binary32 b = 0#8
    · rw [if_pos hzero, if_pos hzero]
      by_cases hm : @unpackMantissa Format.binary32 b = 0#23
      · rw [dif_pos hm, hm]
        rfl
      · rw [dif_neg hm, hzero]
        have hexponent : ((0#8).toNat : Int) - (Format.binary32.exponentBias + (23 : Nat)) + 1 = -149 := rfl
        have hnarrow : ∀ m, narrowBelow m (-149) = false := by simp [narrowBelow]
        rw [binary, hexponent, hnarrow]
        rfl
    · rw [if_neg hzero, if_neg hzero]
      have hexponent : (((2 ^ (8 - 1) : Nat) : Int) - 1 + (23 : Nat)) = 150 := rfl
      have hnarrow : narrowBelow (2 ^ 23 + (@unpackMantissa Format.binary32 b).toNat)
          ((@unpackExponent Format.binary32 b).toNat - 150) =
            (decide (@unpackMantissa Format.binary32 b = 0#23) &&
              decide (1 < (@unpackExponent Format.binary32 b).toNat)) := by
        rw [narrowBelow, Bool.eq_iff_iff]
        simp only [Bool.and_eq_true, decide_eq_true_eq, ← hfraction]
        omega
      rw [binary, hbias, hexponent, hleading, hnarrow]

theorem ofFloat32_eq (x : Score) : Binary.ofFloat32 x = binary (unpacked x) :=
  ofBits_eq x.toBits.toBitVec

theorem neg_packed (hc : Canonical m e) (he : e ≤ 104) :
    -packed (.finite .positive m e hc.pos) = packed (.finite .negative m e hc.pos) := by
  change packed (unpacked (packed (.finite .positive m e hc.pos))).neg = _
  rw [unpacked_packed hc he]
  rfl

/-- The sign and the shortest decimal of a number read as a numeral of the same value. -/
theorem ofChars?_shortest (sign : Sign) (hc : Canonical m e) (he : e ≤ 104) :
    (Numeral.ofChars? (if sign == .negative then
      '-' :: (Decimal.shortest .up m e (narrowBelow m e)).positional
        else (Decimal.shortest .up m e (narrowBelow m e)).positional)).map Numeral.toScore =
      some (packed (.finite sign m e hc.pos)) := by
  obtain ⟨hdigits, hlow, hhigh, hcontains⟩ := Decimal.shortest_spec .up hc he
  generalize Decimal.shortest .up m e (narrowBelow m e) = d at *
  obtain ⟨c, cs, hcons, hc'⟩ := d.exists_positional_cons
  have hvalue : ((d.digits * 10 ^ d.exponent.toNat : Nat) : ℚ) * 10 ^ min d.exponent 0 =
      d.digits * 10 ^ d.exponent := by
    push_cast
    rw [mul_assoc, ← zpow_natCast, ← zpow_add₀ (by norm_num)]
    congr 2
    omega
  rw [← hvalue] at hcontains
  have hscore := ofScientific_eq hc (Nat.mul_pos hdigits (Nat.pow_pos (by decide))) (by omega)
    (min_le_right _ _) hcontains
  rw [hcons, Numeral.ofChars?_signed _ hc', ← hcons, Decimal.decimal?_positional]
  simp only [Option.map_some, Numeral.toScore, hscore, Option.some.injEq]
  cases sign with
  | positive => rfl
  | negative => exact neg_packed hc he

/-- Every score reads back from its text as it was. -/
theorem score?_ofScore (x : Score) : Numeral.score? (NumberText.ofScore x) = some x := by
  unfold Numeral.score? NumberText.ofScore
  rw [ofFloat32_eq]
  cases hx : unpacked x with
  | notANumber =>
    rw [eq_of_unpacked_eq (y := nan) hx]
    rfl
  | infinity sign =>
    cases sign with
    | negative =>
      rw [eq_of_unpacked_eq (y := negInfinity) hx]
      rfl
    | positive =>
      rw [eq_of_unpacked_eq (y := infinity) hx]
      rfl
  | zero sign =>
    cases sign with
    | negative =>
      rw [eq_of_unpacked_eq (y := negZero) hx]
      rfl
    | positive =>
      rw [eq_of_unpacked_eq (y := zero) hx]
      rfl
  | finite sign m e hm =>
    obtain ⟨hc, he⟩ := canonical_of_unpacked hx
    rw [binary, NumberText.plain, if_neg hm.ne', NumberText.signed, String.toList_ofList,
      ofChars?_shortest sign hc he, ← hx, packed_unpacked]

end Score
end ExactNeighbors
