import ExactNeighbors.Proofs.Number.Nearest

/-! # The decimal that is found lies in the interval

The ends of a rounding interval and the points of a decimal grid are compared as whole numbers over
a common unit. A grid much finer than the interval has a point in it, and the search begins less
than twenty-five steps above such a grid.
-/
namespace ExactNeighbors.Decimal

open Rounding (Canonical narrowBelow zpow_sub_two)

theorem zpow_mul_toNat {b : ℚ} (hb : b ≠ 0) (e : Int) : b ^ e * b ^ (-e).toNat = b ^ e.toNat := by
  rw [← zpow_natCast, ← zpow_natCast, ← zpow_add₀ hb]
  congr 1
  omega

namespace Interval

variable {tie : Tie} {i : Interval} {k : Int}

def up (i : Interval) (k : Int) : Nat := Nat.pow 2 i.exponent.toNat * Nat.pow 10 (-k).toNat

def down (i : Interval) (k : Int) : Nat := Nat.pow 2 (-i.exponent).toNat * Nat.pow 10 k.toNat

def unit (i : Interval) (k : Int) : ℚ := 2 ^ (-i.exponent).toNat * 10 ^ (-k).toNat

theorem unit_pos (i : Interval) (k : Int) : 0 < i.unit k := by
  unfold unit
  positivity

theorem down_pos (i : Interval) (k : Int) : 0 < i.down k :=
  Nat.mul_pos (Nat.pow_pos (by decide)) (Nat.pow_pos (by decide))

theorem cast_up (i : Interval) (k : Int) : (i.up k : ℚ) = 2 ^ i.exponent * i.unit k := by
  have hpow := zpow_mul_toNat (b := 2) two_ne_zero i.exponent
  rw [unit, ← mul_assoc, hpow, up]
  push_cast [Nat.pow_eq]
  rfl

theorem cast_down (i : Interval) (k : Int) : (i.down k : ℚ) = 10 ^ k * i.unit k := by
  have hpow := zpow_mul_toNat (b := 10) (by norm_num) k
  rw [unit, mul_left_comm, hpow, down]
  push_cast [Nat.pow_eq]
  rfl

theorem up_le_down_iff (a c : Nat) :
    a * i.up k ≤ c * i.down k ↔ (a : ℚ) * 2 ^ i.exponent ≤ c * 10 ^ k := by
  rw [← Nat.cast_le (α := ℚ), Nat.cast_mul, Nat.cast_mul, cast_up, cast_down, ← mul_assoc,
    ← mul_assoc, mul_le_mul_iff_of_pos_right (i.unit_pos k)]

theorem down_le_up_iff (a c : Nat) :
    c * i.down k ≤ a * i.up k ↔ (c : ℚ) * 10 ^ k ≤ a * 2 ^ i.exponent := by
  rw [← Nat.cast_le (α := ℚ), Nat.cast_mul, Nat.cast_mul, cast_up, cast_down, ← mul_assoc,
    ← mul_assoc, mul_le_mul_iff_of_pos_right (i.unit_pos k)]

def holds (i : Interval) (k : Int) (c : Nat) : Bool :=
  if i.closed then i.low * i.up k ≤ c * i.down k && c * i.down k ≤ i.high * i.up k
  else i.low * i.up k < c * i.down k && c * i.down k < i.high * i.up k

theorem holds_iff (i : Interval) (k : Int) (c : Nat) :
    i.holds k c = true ↔ i.Contains (c * 10 ^ k) := by
  unfold holds Contains
  cases i.closed with
  | true => simp [up_le_down_iff, down_le_up_iff]
  | false =>
    simp only [Bool.false_eq_true, if_false, Bool.and_eq_true, decide_eq_true_eq]
    rw [← not_le, ← not_le, down_le_up_iff, up_le_down_iff, not_le, not_le]

def below (i : Interval) (k : Int) : Nat := i.value * i.up k / i.down k

theorem below_le (i : Interval) (k : Int) :
    (i.below k : ℚ) * 10 ^ k ≤ i.value * 2 ^ i.exponent := by
  rw [← down_le_up_iff]
  exact Nat.div_mul_le_self _ _

theorem lt_below_add_one (i : Interval) (k : Int) :
    i.value * 2 ^ i.exponent < ((i.below k + 1 : Nat) : ℚ) * 10 ^ k := by
  rw [← not_le, ← down_le_up_iff, not_le]
  exact Nat.lt_mul_of_div_lt (Nat.lt_succ_self _) (i.down_pos k)

theorem point?_eq (tie : Tie) (i : Interval) (k : Int) : i.point? tie k =
    match i.holds k (i.below k), i.holds k (i.below k + 1) with
    | false, false => none
    | true, false => some (i.below k)
    | false, true => some (i.below k + 1)
    | true, true =>
      match compare (2 * (i.value * i.up k)) ((i.below k + (i.below k + 1)) * i.down k) with
      | .lt => some (i.below k)
      | .gt => some (i.below k + 1)
      | .eq => match tie with
        | .up => some (i.below k + 1)
        | .even => some (if i.below k % 2 = 0 then i.below k else i.below k + 1) := rfl

theorem contains_of_point? {c : Nat} (h : i.point? tie k = some c) : i.Contains (c * 10 ^ k) := by
  rw [← holds_iff]
  rw [point?_eq] at h
  cases hbelow : i.holds k (i.below k) <;> cases habove : i.holds k (i.below k + 1) <;>
    rw [hbelow, habove] at h
  case false.false => cases h
  case false.true =>
    cases h
    exact habove
  case true.false =>
    cases h
    exact hbelow
  case true.true =>
    have hone : c = i.below k ∨ c = i.below k + 1 := by grind
    rcases hone with rfl | rfl
    · exact hbelow
    · exact habove

theorem exists_point? (tie : Tie) (h : i.holds k (i.below k + 1) = true) :
    ∃ c, i.point? tie k = some c := by
  rw [point?_eq, h]
  cases i.holds k (i.below k) with
  | false => exact ⟨_, rfl⟩
  | true =>
    dsimp only
    split
    · exact ⟨_, rfl⟩
    · exact ⟨_, rfl⟩
    · cases tie <;> exact ⟨_, rfl⟩

/-- Searching downwards ends at a grid with a point, if there is one within the steps. -/
theorem search_eq {steps j : Nat} (hj : j < steps) (h : ∃ c, i.point? tie (k - j) = some c) :
    ∃ k' c, k - j ≤ k' ∧ k' ≤ k ∧ i.search tie steps k = ⟨c, k'⟩ ∧ i.point? tie k' = some c := by
  induction steps generalizing k j with
  | zero => omega
  | succ steps ih =>
    rw [search]
    cases hpoint : i.point? tie k with
    | some c => exact ⟨k, c, by omega, le_rfl, rfl, hpoint⟩
    | none =>
      cases j with
      | zero =>
        obtain ⟨c, hc⟩ := h
        rw [Nat.cast_zero, sub_zero, hpoint] at hc
        cases hc
      | succ j =>
        have hstep : k - (j + 1 : Nat) = k - 1 - j := by
          push_cast
          ring
        obtain ⟨k', c, hlow, hhigh, hsearch, hc⟩ := ih (Nat.lt_of_succ_lt_succ hj) (hstep ▸ h)
        exact ⟨k', c, by omega, by omega, hsearch, hc⟩

theorem contains_of_lt {v : ℚ} (hlow : i.low * (2 : ℚ) ^ i.exponent < v)
    (hhigh : v < i.high * (2 : ℚ) ^ i.exponent) : i.Contains v := by
  unfold Contains
  split
  · exact ⟨hlow.le, hhigh.le⟩
  · exact ⟨hlow, hhigh⟩

variable {m : Nat} {e : Int} {narrow : Bool}

theorem low_lt_value (hm : 0 < m) : (Interval.of m e narrow).low < 4 * m := by
  cases narrow with
  | true =>
    change 4 * m - 1 < 4 * m
    omega
  | false =>
    change 4 * m - 2 < 4 * m
    omega

/-- Above the value there is half a unit of room for the next point of a fine grid. -/
theorem holds_above (hm : 0 < m) (hk : (10 : ℚ) ^ k < 2 ^ (e - 1)) :
    (Interval.of m e narrow).holds k ((Interval.of m e narrow).below k + 1) = true := by
  rw [holds_iff]
  have hpos : (0 : ℚ) < 2 ^ (e - 2) := by positivity
  have hbelow := below_le (Interval.of m e narrow) k
  have habove := lt_below_add_one (Interval.of m e narrow) k
  have hvalue : ((Interval.of m e narrow).value : ℚ) = 4 * m := by
    change ((4 * m : Nat) : ℚ) = 4 * m
    push_cast
    rfl
  have hexponent : (Interval.of m e narrow).exponent = e - 2 := rfl
  have hdouble : (2 : ℚ) ^ (e - 1) = 2 * 2 ^ (e - 2) := by
    rw [← zpow_one_add₀ two_ne_zero]
    congr 1
    omega
  rw [hvalue, hexponent] at hbelow habove
  apply contains_of_lt
  · refine lt_of_le_of_lt (mul_le_mul_of_nonneg_right ?_ hpos.le) habove
    exact_mod_cast (low_lt_value hm).le
  · rw [high_of, hexponent]
    push_cast
    linarith

end Interval

/-- Powers of ten against powers of two, within a digit or so. -/
theorem ten_zpow_le {k : Int} : (10 : ℚ) ^ k ≤ 2 ^ max (3 * k) (4 * k) := by
  rcases le_total 0 k with hk | hk
  · have hmul : (2 : ℚ) ^ (4 * k) = 16 ^ k := by
      rw [zpow_mul]
      norm_num
    rw [max_eq_right (by omega), hmul]
    exact zpow_le_zpow_left₀ hk (by norm_num) (by norm_num)
  · have hmul : (2 : ℚ) ^ (3 * k) = 8 ^ k := by
      rw [zpow_mul]
      norm_num
    have hinv := zpow_le_zpow_left₀ (neg_nonneg.mpr hk) (by norm_num) (by norm_num : (10 : ℚ)⁻¹ ≤ 8⁻¹)
    rw [inv_zpow', inv_zpow', neg_neg] at hinv
    rw [max_eq_left (by omega), hmul]
    exact hinv

variable {m : Nat} {e : Int}

/-- The shortest decimal lies in the rounding interval of the number that it stands for. -/
theorem shortest_spec (tie : Tie) (hc : Canonical m e) (he : e ≤ 104) :
    let d := shortest tie m e (narrowBelow m e)
    0 < d.digits ∧ -68 ≤ d.exponent ∧ d.exponent ≤ 40 ∧
      (Interval.of m e (narrowBelow m e)).Contains (d.digits * 10 ^ d.exponent) := by
  have hlog := hc.log2_lt
  have hleast := hc.le_exponent
  unfold shortest
  dsimp only
  generalize htop : ((m.log2 : Int) + e + 1) * 30103 / 100000 + 1 = top
  have hfine : (10 : ℚ) ^ (top - (24 : Nat)) < 2 ^ (e - 1) :=
    ten_zpow_le.trans_lt (zpow_lt_zpow_right₀ one_lt_two (by push_cast; omega))
  have habove : (Interval.of m e (narrowBelow m e)).holds (top - (24 : Nat)) _ = true :=
    Interval.holds_above hc.pos hfine
  have hsteps : 24 < 25 := by decide
  obtain ⟨k, c, hlow, hhigh, hsearch, hpoint⟩ :=
    Interval.search_eq hsteps (Interval.exists_point? tie habove)
  rw [hsearch]
  dsimp only
  have hcontains := Interval.contains_of_point? hpoint
  refine ⟨Nat.pos_of_ne_zero ?_, by omega, by omega, hcontains⟩
  rintro rfl
  have hle := hcontains.le.1
  have hlow : (0 : ℚ) < (Interval.of m e (narrowBelow m e)).low := by
    have hone : (1 : ℚ) ≤ m := by exact_mod_cast hc.pos
    linarith [Rounding.le_low_of (e := e) (narrowBelow m e) hc.pos]
  rw [Nat.cast_zero, zero_mul] at hle
  exact absurd hle (not_le.mpr (mul_pos hlow (by positivity)))

end ExactNeighbors.Decimal
