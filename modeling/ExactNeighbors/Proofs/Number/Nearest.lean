import ExactNeighbors.Number.Shortest
import ExactNeighbors.Proofs.Number.Rounding

/-! # The numbers that round to a given one

Half way to each neighbour a number's rounding interval ends; the ends belong to it when the
mantissa is even. Rounding anything in the interval gives the number, also where the interval
reaches below a power of two and the grid is finer.
-/
namespace ExactNeighbors

open Float.Model (Format totalExponent)
open Float.Model.UnpackedFloat

namespace Decimal.Interval

def Contains (i : Interval) (v : ℚ) : Prop :=
  if i.closed then i.low * (2 : ℚ) ^ i.exponent ≤ v ∧ v ≤ i.high * (2 : ℚ) ^ i.exponent
  else i.low * (2 : ℚ) ^ i.exponent < v ∧ v < i.high * (2 : ℚ) ^ i.exponent

variable {m : Nat} {e : Int} {narrow : Bool} {v : ℚ}

theorem low_narrow (hm : 0 < m) : ((Interval.of m e true).low : ℚ) = 4 * m - 1 := by
  change ((4 * m - 1 : Nat) : ℚ) = 4 * m - 1
  push_cast [Nat.cast_sub (show 1 ≤ 4 * m by omega)]
  rfl

theorem low_wide (hm : 0 < m) : ((Interval.of m e false).low : ℚ) = 4 * m - 2 := by
  change ((4 * m - 2 : Nat) : ℚ) = 4 * m - 2
  push_cast [Nat.cast_sub (show 2 ≤ 4 * m by omega)]
  rfl

theorem high_of : ((Interval.of m e narrow).high : ℚ) = 4 * m + 2 := by
  change ((4 * m + 2 : Nat) : ℚ) = 4 * m + 2
  push_cast
  rfl

/-- At the nearest, a number in the interval is half a unit away. -/
theorem Contains.le (h : (Interval.of m e narrow).Contains v) :
    (Interval.of m e narrow).low * (2 : ℚ) ^ (e - 2) ≤ v ∧ v ≤ (4 * m + 2) * (2 : ℚ) ^ (e - 2) := by
  have hhigh : ((Interval.of m e narrow).high : ℚ) = 4 * m + 2 := high_of
  rw [← hhigh]
  unfold Contains at h
  split at h
  · exact h
  · exact ⟨h.1.le, h.2.le⟩

theorem Contains.lt (h : (Interval.of m e narrow).Contains v) (hodd : m % 2 = 1) :
    (Interval.of m e narrow).low * (2 : ℚ) ^ (e - 2) < v ∧ v < (4 * m + 2) * (2 : ℚ) ^ (e - 2) := by
  have hopen : ¬(Interval.of m e narrow).closed = true := by
    simp [Interval.of, hodd]
  have hhigh : ((Interval.of m e narrow).high : ℚ) = 4 * m + 2 := high_of
  rw [← hhigh]
  unfold Contains at h
  rwa [if_neg hopen] at h

end Decimal.Interval

namespace Rounding

open Decimal (Interval)

variable {em : ExtendedMantissa} {m m₀ : Nat} {e e₀ : Int} {a : Accuracy} {v : ℚ}

/-- Whether the number below is only half as far away as the one above. -/
def narrowBelow (m : Nat) (e : Int) : Bool := m = 2 ^ 23 && -149 < e

theorem zpow_sub_two (e : Int) : (2 : ℚ) ^ (e - 2) = 2 ^ e / 4 := by
  rw [zpow_sub₀ two_ne_zero]
  norm_num

theorem le_low_of (narrow : Bool) (hm : 0 < m) :
    (4 * m - 2 : ℚ) ≤ (Interval.of m e narrow).low := by
  cases narrow with
  | true =>
    rw [Interval.low_narrow hm]
    linarith
  | false => rw [Interval.low_wide hm]

/-- A number of the same size as `m` is rounded at the exponent of `m`. -/
theorem roundedMantissa_of_contains {narrow : Bool} (hm : 0 < m) (h : Holds em (v / 2 ^ e))
    (hv : (Interval.of m e narrow).Contains v) : em.roundedMantissa = m := by
  have hpos : (0 : ℚ) < 2 ^ e := by positivity
  have hlow := le_low_of (e := e) narrow hm
  have hunit : ∀ c : ℚ, c * (2 : ℚ) ^ (e - 2) = c / 4 * 2 ^ e := by
    intro c
    rw [zpow_sub_two]
    ring
  obtain ⟨hle, hge⟩ := hv.le
  rw [hunit, ← le_div_iff₀ hpos] at hle
  rw [hunit, ← div_le_iff₀ hpos] at hge
  apply h.roundedMantissa_eq
  · linarith
  · linarith
  · intro hodd
    obtain ⟨hlt, hgt⟩ := hv.lt hodd
    rw [hunit, ← lt_div_iff₀ hpos] at hlt
    rw [hunit, ← div_lt_iff₀ hpos] at hgt
    constructor
    · intro heq
      linarith
    · intro heq
      linarith

/-- Below a power of two the grid is finer: a number there is rounded up to the power. -/
theorem roundedMantissa_of_narrow (hm : 0 < m) (h : Holds em (v / 2 ^ (e - 1)))
    (hv : (Interval.of m e true).Contains v) (hlt : v < m * 2 ^ e) :
    em.roundedMantissa = 2 * m := by
  have hpos : (0 : ℚ) < 2 ^ (e - 1) := by positivity
  have hdouble : (2 : ℚ) ^ e = 2 * 2 ^ (e - 1) := by
    rw [← zpow_one_add₀ two_ne_zero, add_sub_cancel]
  have hle := hv.le.1
  rw [Interval.low_narrow hm, zpow_sub_two, hdouble] at hle
  have hlow : (4 * m - 1 : ℚ) / 2 ≤ v / 2 ^ (e - 1) := by
    rw [le_div_iff₀ hpos]
    linarith
  have hhigh : v / 2 ^ (e - 1) < 2 * m := by
    rw [div_lt_iff₀ hpos]
    rw [hdouble] at hlt
    linarith
  apply h.roundedMantissa_eq
  · push_cast
    linarith
  · push_cast
    linarith
  · intro hodd
    omega

/-- Only a number below a power of two can have a shorter leading part than the one it rounds to. -/
theorem eq_pow_of_lt (hc : Canonical m e) (he : -149 < e)
    (hv : (Interval.of m e (narrowBelow m e)).Contains v) (hlt : v < 2 ^ 23 * 2 ^ e) :
    m = 2 ^ 23 := by
  have hpos : (0 : ℚ) < 2 ^ e := by positivity
  have hlead : 2 ^ 23 ≤ m := hc.leading.resolve_right (by omega)
  have hlow := (mul_le_mul_of_nonneg_right (le_low_of (e := e) (narrowBelow m e) hc.pos)
    (zpow_nonneg (by norm_num) (e - 2))).trans hv.le.1
  rw [zpow_sub_two] at hlow
  have hreal : (m : ℚ) < 2 ^ 23 + 1 := by
    have hmul : (m - 1 / 2) * 2 ^ e < (2 ^ 23 : ℚ) * 2 ^ e := by linarith
    have hcancel := lt_of_mul_lt_mul_right hmul hpos.le
    linarith
  have hnat : m < 2 ^ 23 + 1 := by exact_mod_cast hreal
  omega

/-- Rounding gives the number in whose interval the given one lies. -/
theorem Given.roundWithAccuracy_eq (h : Given m₀ e₀ a v) (hc : Canonical m e)
    (hv : (Interval.of m e (narrowBelow m e)).Contains v) (sign : Sign) :
    roundWithAccuracy Format.binary32 sign m₀ e₀ a = .finite sign m e hc.pos := by
  have hpos : (0 : ℚ) < 2 ^ e := by positivity
  have hscale : ∀ k : Nat, (2 : ℚ) ^ (k + e) = 2 ^ k * 2 ^ e := by
    intro k
    rw [zpow_add₀ two_ne_zero, zpow_natCast]
  obtain ⟨em, hem, hfirst⟩ := h.shift
  have hhigh := hv.le.2
  rw [zpow_sub_two] at hhigh
  have hsize : v < 2 ^ ((24 : Nat) + e) := by
    have hm : (m : ℚ) + 1 ≤ 2 ^ 24 := by exact_mod_cast hc.lt
    have hmul := mul_le_mul_of_nonneg_right hm hpos.le
    rw [hscale]
    linarith
  have hle := h.targetExponent_le hsize
  have hleast : -149 ≤ Format.binary32.targetExponent (totalExponent m₀ e₀) := le_max_right _ _
  have hcanonical := hc.le_exponent
  by_cases hbelow : -149 < e ∧ v < 2 ^ ((23 : Nat) + e)
  · obtain ⟨he, hbelow⟩ := hbelow
    have hbelow' := hscale 23 ▸ hbelow
    obtain rfl := eq_pow_of_lt hc he hv hbelow'
    have hnarrow : narrowBelow (2 ^ 23) e = true := by simpa [narrowBelow] using he
    rw [hnarrow] at hv
    have hlow := hv.le.1
    rw [Interval.low_narrow hc.pos, zpow_sub_two] at hlow
    have hhalf : 2 ^ ((22 : Nat) + e) ≤ v := by
      rw [hscale]
      push_cast at hlow
      linarith
    have htarget : Format.binary32.targetExponent (totalExponent m₀ e₀) = e - 1 := by
      have hge := h.le_targetExponent hhalf
      have hle := h.targetExponent_le hbelow
      omega
    rw [htarget] at hem hfirst
    have hround := roundedMantissa_of_narrow hc.pos hem hv (by exact_mod_cast hbelow')
    have hcarry := roundWithAccuracy_of_carry sign hfirst hround (by omega)
    rw [hcarry]
    congr 1
    omega
  · have htarget : Format.binary32.targetExponent (totalExponent m₀ e₀) = e := by
      by_cases he : e = -149
      · omega
      · have hge := h.le_targetExponent (not_lt.mp fun hlt => hbelow ⟨by omega, hlt⟩)
        omega
    rw [htarget] at hem hfirst
    exact roundWithAccuracy_of_canonical sign hfirst
      (roundedMantissa_of_contains hc.pos hem hv) hc

end Rounding
end ExactNeighbors
