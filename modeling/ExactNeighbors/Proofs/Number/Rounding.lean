import Mathlib

/-! # What a rounded number was before

A mantissa with a round bit and a sticky bit stands for a range of numbers, half a unit wide or a
single point. Shifting it to the right divides the number and keeps that meaning, so that rounding
takes the nearest whole number, and of two equally near the even one. A quotient and a whole
mantissa of any length come with digits enough for this, and what is not too small for the format
is rounded to a mantissa with its leading digit in place.
-/
namespace ExactNeighbors.Rounding

open Float.Model (Format UnpackedFloat totalExponent)
open Float.Model.UnpackedFloat

variable {em : ExtendedMantissa} {x : ℚ} {m : Nat}

/-- A mantissa with its round bit, in half units. -/
def halves (em : ExtendedMantissa) : Nat := 2 * em.mantissa + em.roundBit.toNat

/-- An extended mantissa holds the numbers from its half units up to the next one. The sticky bit
tells whether something is left. -/
structure Holds (em : ExtendedMantissa) (x : ℚ) : Prop where
  le : halves em ≤ 2 * x
  lt : 2 * x < halves em + 1
  sticky_iff : em.stickyBit = false ↔ 2 * x = halves em

theorem halves_shiftRightOne (em : ExtendedMantissa) : halves em.shiftRightOne = em.mantissa := by
  have hround : (em.mantissa % 2 != 0).toNat = em.mantissa % 2 := by
    rcases Nat.mod_two_eq_zero_or_one em.mantissa with h | h <;> rw [h] <;> rfl
  simp only [halves, ExtendedMantissa.shiftRightOne, hround]
  omega

theorem Holds.shiftRightOne (h : Holds em x) : Holds em.shiftRightOne (x / 2) := by
  obtain ⟨hle, hlt, hsticky⟩ := h
  have hhalves : (halves em : ℚ) = 2 * em.mantissa + em.roundBit.toNat := by
    rw [halves]
    push_cast
    rfl
  rw [hhalves] at hle hlt hsticky
  have hround : (em.roundBit.toNat : ℚ) ≤ 1 := by exact_mod_cast Bool.toNat_le em.roundBit
  have hround' : (0 : ℚ) ≤ em.roundBit.toNat := by positivity
  constructor
  case le =>
    rw [halves_shiftRightOne]
    linarith
  case lt =>
    rw [halves_shiftRightOne]
    linarith
  case sticky_iff =>
    rw [halves_shiftRightOne]
    simp only [ExtendedMantissa.shiftRightOne, Bool.or_eq_false_iff]
    cases hr : em.roundBit with
    | false =>
      rw [hsticky, hr, Bool.toNat_false]
      push_cast
      constructor
      · rintro ⟨-, hx⟩
        linarith
      · intro hx
        exact ⟨rfl, by linarith⟩
    | true =>
      rw [hr, Bool.toNat_true] at hle
      push_cast at hle
      constructor
      · rintro ⟨hr', -⟩
        cases hr'
      · intro hx
        linarith

theorem Holds.shiftRight (h : Holds em x) (n : Nat) : Holds (em >>> n) (x / 2 ^ n) := by
  induction n with
  | zero =>
    rw [pow_zero, div_one]
    exact h
  | succ n ih =>
    rw [pow_succ, ← div_div]
    exact ih.shiftRightOne

/-- Rounding takes the nearest whole number, and of two equally near the even one. -/
theorem Holds.roundedMantissa_eq (h : Holds em x) (hlow : (2 * m : ℚ) ≤ 2 * x + 1)
    (hhigh : 2 * x ≤ 2 * m + 1)
    (htie : m % 2 = 1 → (2 * m : ℚ) ≠ 2 * x + 1 ∧ 2 * x ≠ 2 * m + 1) :
    em.roundedMantissa = m := by
  obtain ⟨n, roundBit, stickyBit⟩ := em
  obtain ⟨hle, hlt, hsticky⟩ := h
  simp only [halves] at hle hlt hsticky
  -- In half units everything but `x` is whole.
  have hlower : 2 * m ≤ 2 * n + roundBit.toNat + 1 := by
    have hreal : (2 * m : ℚ) < 2 * n + roundBit.toNat + 2 := by
      push_cast at hlt
      linarith
    have hnat : 2 * m < 2 * n + roundBit.toNat + 2 := by exact_mod_cast hreal
    omega
  have hupper : 2 * n + roundBit.toNat ≤ 2 * m + 1 := by
    exact_mod_cast hle.trans hhigh
  cases roundBit with
  | false =>
    have hn : n = m := by
      rw [Bool.toNat_false] at hlower hupper
      omega
    cases stickyBit <;> exact hn
  | true =>
    rw [Bool.toNat_true] at hle hlt hsticky hlower hupper
    cases stickyBit with
    | false =>
      have hx : 2 * x = 2 * n + 1 := by
        rw [hsticky.mp rfl]
        push_cast
        rfl
      -- Halfway between two whole numbers the odd one is out.
      have hodd : m % 2 = 1 → m ≠ n + 1 ∧ m ≠ n := by
        intro hm
        obtain ⟨hbelow, habove⟩ := htie hm
        constructor
        · rintro rfl
          rw [hx] at hbelow
          push_cast at hbelow
          exact hbelow (by ring)
        · rintro rfl
          exact habove hx
      change n + n % 2 = m
      omega
    | true =>
      have hlt' : (2 * n + 1 : ℚ) < 2 * m + 1 := by
        have hx : 2 * x ≠ ((2 * n + 1 : Nat) : ℚ) := fun hx => absurd (hsticky.mpr hx) (by decide)
        have hstrict := lt_of_le_of_ne hle hx.symm
        push_cast at hstrict
        linarith
      have hnat : 2 * n + 1 < 2 * m + 1 := by exact_mod_cast hlt'
      change n + 1 = m
      omega

theorem holds_mk {n : Nat} {roundBit stickyBit : Bool} (hle : (2 * n + roundBit.toNat : ℚ) ≤ 2 * x)
    (hlt : 2 * x < 2 * n + roundBit.toNat + 1)
    (hsticky : stickyBit = false ↔ 2 * x = 2 * n + roundBit.toNat) :
    Holds ⟨n, roundBit, stickyBit⟩ x := by
  have hhalves : (halves ⟨n, roundBit, stickyBit⟩ : ℚ) = 2 * n + roundBit.toNat := by
    simp only [halves]
    push_cast
    rfl
  exact ⟨hhalves ▸ hle, hhalves ▸ hlt, hhalves ▸ hsticky⟩

theorem holds_exact (m : Nat) : Holds (.ofMantissaAndAccuracy m .exact) m :=
  holds_mk (by simp) (by simp) (by simp)

/-- What a division with remainder leaves is told apart at half a unit. -/
theorem holds_fraction {r d : Nat} (hr : r < d) (q : Nat) :
    Holds (.ofMantissaAndAccuracy q (accuracyOfFraction r d)) (q + r / d) := by
  have hd : (0 : ℚ) < d := by exact_mod_cast Nat.zero_lt_of_lt hr
  unfold accuracyOfFraction
  by_cases hzero : r = 0
  · rw [if_pos hzero, hzero, Nat.cast_zero, zero_div, add_zero]
    exact holds_exact q
  · rw [if_neg hzero]
    have hone : (r : ℚ) / d < 1 := (div_lt_one hd).mpr (by exact_mod_cast hr)
    have hpos : (0 : ℚ) < r / d := div_pos (by exact_mod_cast Nat.pos_of_ne_zero hzero) hd
    have hhalf : 2 * ((r : ℚ) / d) = (2 * r : Nat) / d := by
      push_cast
      ring
    cases hcompare : compare (2 * r) d with
    | lt =>
      have hlow : 2 * ((r : ℚ) / d) < 1 := by
        rw [hhalf, div_lt_one hd]
        exact_mod_cast Nat.compare_eq_lt.mp hcompare
      have hmore : 2 * (q + (r : ℚ) / d) ≠ 2 * q + false.toNat := by
        rw [Bool.toNat_false, Nat.cast_zero]
        linarith
      refine holds_mk ?_ ?_ (iff_of_false Bool.noConfusion hmore)
      · rw [Bool.toNat_false, Nat.cast_zero]
        linarith
      · rw [Bool.toNat_false, Nat.cast_zero]
        linarith
    | eq =>
      have hmiddle : 2 * ((r : ℚ) / d) = 1 := by
        rw [hhalf, Nat.compare_eq_eq.mp hcompare, div_self hd.ne']
      have hsame : 2 * (q + (r : ℚ) / d) = 2 * q + true.toNat := by
        rw [Bool.toNat_true, Nat.cast_one]
        linarith
      exact holds_mk hsame.ge (by linarith) (iff_of_true rfl hsame)
    | gt =>
      have hhigh : 1 < 2 * ((r : ℚ) / d) := by
        rw [hhalf, one_lt_div hd]
        exact_mod_cast Nat.compare_eq_gt.mp hcompare
      have hmore : 2 * (q + (r : ℚ) / d) ≠ 2 * q + true.toNat := by
        rw [Bool.toNat_true, Nat.cast_one]
        intro h
        linarith
      refine holds_mk ?_ ?_ (iff_of_false Bool.noConfusion hmore)
      · rw [Bool.toNat_true, Nat.cast_one]
        linarith
      · rw [Bool.toNat_true, Nat.cast_one]
        linarith

theorem mantissa_ofMantissaAndAccuracy (m : Nat) (a : Accuracy) :
    (ExtendedMantissa.ofMantissaAndAccuracy m a).mantissa = m := by
  cases a with
  | exact => rfl
  | inexact o => cases o <;> rfl

theorem Holds.mantissa_le (h : Holds em x) : (em.mantissa : ℚ) ≤ x := by
  have hle := h.le
  rw [halves] at hle
  push_cast at hle
  have hround : (0 : ℚ) ≤ em.roundBit.toNat := by positivity
  linarith

theorem Holds.lt_mantissa_add_one (h : Holds em x) : x < em.mantissa + 1 := by
  have hlt := h.lt
  rw [halves] at hlt
  push_cast at hlt
  have hround : (em.roundBit.toNat : ℚ) ≤ 1 := by exact_mod_cast Bool.toNat_le em.roundBit
  linarith

theorem targetExponent_eq (e : Int) : Format.binary32.targetExponent e = max (e - 24) (-149) := rfl

variable {v : ℚ} {e : Int}

/-- The place of the leading digit of a number is that of its mantissa. -/
theorem Holds.totalExponent_bounds (h : Holds em (v / 2 ^ e)) (hm : em.mantissa ≠ 0) :
    (2 : ℚ) ^ (totalExponent em.mantissa e - 1) ≤ v ∧ v < 2 ^ totalExponent em.mantissa e := by
  have hpos : (0 : ℚ) < 2 ^ e := by positivity
  have hlow : (2 : ℚ) ^ em.mantissa.log2 ≤ em.mantissa := by exact_mod_cast Nat.log2_self_le hm
  have hhigh : (em.mantissa : ℚ) + 1 ≤ 2 ^ (em.mantissa.log2 + 1) := by
    exact_mod_cast Nat.lt_log2_self (n := em.mantissa)
  have hle := (le_div_iff₀ hpos).mp h.mantissa_le
  have hlt := (div_lt_iff₀ hpos).mp h.lt_mantissa_add_one
  have htotal : totalExponent em.mantissa e = em.mantissa.log2 + 1 + e := rfl
  have hexponent : totalExponent em.mantissa e - 1 = em.mantissa.log2 + e := by omega
  rw [hexponent, htotal, zpow_add₀ two_ne_zero, zpow_add₀ two_ne_zero, zpow_natCast]
  constructor
  · exact (mul_le_mul_of_nonneg_right hlow hpos.le).trans hle
  · refine hlt.trans_le (mul_le_mul_of_nonneg_right ?_ hpos.le)
    exact_mod_cast hhigh

/-- Mantissa and exponent of a number that is neither zero nor too large: the leading digit is in
its place, or the exponent is the least one. -/
structure Canonical (m : Nat) (e : Int) : Prop where
  pos : 0 < m
  lt : m < 2 ^ 24
  le_exponent : -149 ≤ e
  leading : 2 ^ 23 ≤ m ∨ e = -149

theorem Canonical.log2_lt (h : Canonical m e) : m.log2 < 24 :=
  (Nat.log2_lt (Nat.ne_of_gt h.pos)).mpr h.lt

theorem shiftToTargetExponent_of_le {m : Nat} {e : Int}
    (h : Format.binary32.targetExponent (totalExponent m e) ≤ e) :
    shiftToTargetExponent Format.binary32 m e .exact = (⟨m, false, false⟩, e) := by
  have hshift : (Format.binary32.targetExponent (totalExponent m e) - e).toNat = 0 := by omega
  unfold shiftToTargetExponent shiftToExponent
  simp only [hshift, Nat.cast_zero, Int.add_zero]
  rfl

theorem Canonical.shiftToTargetExponent_eq (h : Canonical m e) :
    shiftToTargetExponent Format.binary32 m e .exact = (⟨m, false, false⟩, e) := by
  have hlog := h.log2_lt
  have hle := h.le_exponent
  apply shiftToTargetExponent_of_le
  rw [targetExponent_eq, totalExponent]
  omega

/-- A mantissa that rounding has made one digit too long. -/
theorem shiftToTargetExponent_carry (he : -149 ≤ e) :
    shiftToTargetExponent Format.binary32 (2 ^ 24) e .exact = (⟨2 ^ 23, false, false⟩, e + 1) := by
  have htarget : Format.binary32.targetExponent (totalExponent (2 ^ 24) e) = e + 1 := by
    rw [targetExponent_eq, totalExponent, Nat.log2_two_pow]
    omega
  have hshift : (e + 1 - e).toNat = 1 := by omega
  unfold shiftToTargetExponent shiftToExponent
  rw [htarget]
  simp only [hshift]
  rfl

variable {m₀ : Nat} {e₀ : Int} {a : Accuracy} {target : Int}

theorem roundWithAccuracy_of_canonical (sign : Sign)
    (hfirst : shiftToTargetExponent Format.binary32 m₀ e₀ a = (em, e))
    (hround : em.roundedMantissa = m) (hc : Canonical m e) :
    roundWithAccuracy Format.binary32 sign m₀ e₀ a = .finite sign m e hc.pos := by
  have hne : m ≠ 0 := Nat.ne_of_gt hc.pos
  unfold roundWithAccuracy
  simp only [hfirst, hround, hc.shiftToTargetExponent_eq]
  rw [dif_neg hne]

theorem roundWithAccuracy_of_carry (sign : Sign)
    (hfirst : shiftToTargetExponent Format.binary32 m₀ e₀ a = (em, e))
    (hround : em.roundedMantissa = 2 ^ 24) (he : -149 ≤ e) :
    roundWithAccuracy Format.binary32 sign m₀ e₀ a =
      .finite sign (2 ^ 23) (e + 1) (by decide) := by
  unfold roundWithAccuracy
  simp only [hfirst, hround, shiftToTargetExponent_carry he]
  rw [dif_neg (by decide)]

structure Given (m₀ : Nat) (e₀ : Int) (a : Accuracy) (v : ℚ) : Prop where
  holds : Holds (.ofMantissaAndAccuracy m₀ a) (v / 2 ^ e₀)
  le_target : e₀ ≤ Format.binary32.targetExponent (totalExponent m₀ e₀)

namespace Given

theorem shift (h : Given m₀ e₀ a v) :
    ∃ em, Holds em (v / 2 ^ Format.binary32.targetExponent (totalExponent m₀ e₀)) ∧
      shiftToTargetExponent Format.binary32 m₀ e₀ a =
        (em, Format.binary32.targetExponent (totalExponent m₀ e₀)) := by
  have hle := h.le_target
  generalize hT : Format.binary32.targetExponent (totalExponent m₀ e₀) = T at hle
  have hexponent : e₀ + (T - e₀).toNat = T := by omega
  refine ⟨ExtendedMantissa.ofMantissaAndAccuracy m₀ a >>> (T - e₀).toNat, ?_, ?_⟩
  · have hv : v / 2 ^ T = v / 2 ^ e₀ / 2 ^ (T - e₀).toNat := by
      rw [div_div, ← zpow_natCast, ← zpow_add₀ two_ne_zero, hexponent]
    rw [hv]
    exact h.holds.shiftRight _
  · unfold shiftToTargetExponent shiftToExponent
    rw [hT]
    simp only [hexponent]

/-- The exponent to round at is as small as the size of the number asks for. -/
theorem targetExponent_le (h : Given m₀ e₀ a v) {k : Int} (hv : v < 2 ^ k) :
    Format.binary32.targetExponent (totalExponent m₀ e₀) ≤ max (k - 24) (-149) := by
  have hle := h.le_target
  rw [targetExponent_eq] at hle ⊢
  by_cases hm : m₀ = 0
  · have htotal : totalExponent m₀ e₀ = e₀ + 1 := by
      rw [hm, totalExponent, Nat.log2_zero]
      omega
    omega
  · have hbounds := h.holds.totalExponent_bounds
    rw [mantissa_ofMantissaAndAccuracy] at hbounds
    have hlt : totalExponent m₀ e₀ - 1 < k :=
      (zpow_lt_zpow_iff_right₀ one_lt_two).mp ((hbounds hm).1.trans_lt hv)
    omega

theorem le_targetExponent (h : Given m₀ e₀ a v) {k : Int} (hv : 2 ^ k ≤ v) :
    k - 23 ≤ Format.binary32.targetExponent (totalExponent m₀ e₀) := by
  have hle := h.le_target
  rw [targetExponent_eq] at hle ⊢
  by_cases hm : m₀ = 0
  · have hpos : (0 : ℚ) < 2 ^ e₀ := by positivity
    have hlt := h.holds.lt_mantissa_add_one
    rw [mantissa_ofMantissaAndAccuracy, hm, Nat.cast_zero, zero_add, div_lt_one hpos] at hlt
    have hk : k < e₀ := (zpow_lt_zpow_iff_right₀ one_lt_two).mp (hv.trans_lt hlt)
    omega
  · have hbounds := h.holds.totalExponent_bounds
    rw [mantissa_ofMantissaAndAccuracy] at hbounds
    have hlt : k < totalExponent m₀ e₀ :=
      (zpow_lt_zpow_iff_right₀ one_lt_two).mp (hv.trans_lt (hbounds hm).2)
    omega

end Given

theorem roundedMantissa_bounds (em : ExtendedMantissa) :
    em.mantissa ≤ em.roundedMantissa ∧ em.roundedMantissa ≤ em.mantissa + 1 := by
  obtain ⟨n, roundBit, stickyBit⟩ := em
  have hodd : n % 2 < 2 := Nat.mod_lt n (by decide)
  cases roundBit <;> cases stickyBit <;>
    simp only [ExtendedMantissa.roundedMantissa, ExtendedMantissa.accuracy,
      Accuracy.roundToNearestEven] <;> omega

/-- What is not too small for the format is rounded to a number that is neither zero nor
infinite before packing. -/
theorem Given.exists_canonical (h : Given m₀ e₀ a v) (hv : (2 : ℚ) ^ (-149 : Int) ≤ v) :
    ∃ m e, ∃ hc : Canonical m e, ∀ sign,
      roundWithAccuracy Format.binary32 sign m₀ e₀ a = .finite sign m e hc.pos := by
  have hpos : 0 < v := lt_of_lt_of_le (by positivity) hv
  obtain ⟨k, hk, hk'⟩ := exists_mem_Ico_zpow hpos one_lt_two
  obtain ⟨em, hem, hfirst⟩ := h.shift
  have hle := h.targetExponent_le hk'
  have hge := h.le_targetExponent hk
  have hleast : -149 ≤ Format.binary32.targetExponent (totalExponent m₀ e₀) := le_max_right _ _
  generalize Format.binary32.targetExponent (totalExponent m₀ e₀) = T at *
  have hunit : (0 : ℚ) < 2 ^ T := by positivity
  have hupper : em.mantissa < 2 ^ 24 := by
    have hsize : v < 2 ^ (24 : Nat) * 2 ^ T := by
      rw [← zpow_natCast, ← zpow_add₀ two_ne_zero]
      exact hk'.trans_le (zpow_le_zpow_right₀ one_le_two (by push_cast; omega))
    have hlt := hem.mantissa_le.trans_lt ((div_lt_iff₀ hunit).mpr hsize)
    exact_mod_cast hlt
  have hlower : ∀ n : Nat, 2 ^ (n + T) ≤ v → 2 ^ n ≤ em.mantissa := by
    intro n hn
    rw [zpow_add₀ two_ne_zero, zpow_natCast, ← le_div_iff₀ hunit] at hn
    have hlt : ((2 ^ n : Nat) : ℚ) < (em.mantissa + 1 : Nat) := by
      push_cast
      exact hn.trans_lt hem.lt_mantissa_add_one
    exact Nat.lt_succ_iff.mp (Nat.cast_lt.mp hlt)
  have hlead : 2 ^ 23 ≤ em.mantissa ∨ T = -149 := by
    by_cases hT : T = -149
    · exact Or.inr hT
    · refine Or.inl (hlower 23 ((zpow_le_zpow_right₀ one_le_two ?_).trans hk))
      push_cast
      omega
  have hone : 1 ≤ em.mantissa := by
    rcases hlead with hlead | rfl
    · exact le_trans (by decide) hlead
    · exact hlower 0 hv
  obtain ⟨hfloor, hceil⟩ := roundedMantissa_bounds em
  by_cases hcarry : em.roundedMantissa = 2 ^ 24
  · exact ⟨2 ^ 23, T + 1, ⟨by decide, by decide, by omega, Or.inl le_rfl⟩,
      fun sign => roundWithAccuracy_of_carry sign hfirst hcarry hleast⟩
  · have hc : Canonical em.roundedMantissa T :=
      ⟨by omega, by omega, hleast, hlead.imp_left fun hlead => hlead.trans hfloor⟩
    exact ⟨em.roundedMantissa, T, hc, fun sign => roundWithAccuracy_of_canonical sign hfirst rfl hc⟩

theorem given_exact {m : Nat} {e : Int}
    (h : e ≤ Format.binary32.targetExponent (totalExponent m e)) :
    Given m e .exact (m * 2 ^ e) where
  holds := by
    rw [mul_div_assoc, div_self (zpow_ne_zero e two_ne_zero), mul_one]
    exact holds_exact m
  le_target := h

theorem log2_shiftLeft {m : Nat} (hm : m ≠ 0) (n : Nat) : (m <<< n).log2 = m.log2 + n := by
  induction n with
  | zero => rfl
  | succ n ih =>
    have hne : m <<< n ≠ 0 := by
      rw [Nat.shiftLeft_eq]
      exact Nat.mul_ne_zero hm (by positivity)
    rw [Nat.shiftLeft_succ, Nat.log2_two_mul hne, ih, Nat.add_assoc]

theorem cast_shiftLeft (m n : Nat) : ((m <<< n : Nat) : ℚ) = m * 2 ^ (n : Int) := by
  rw [Nat.shiftLeft_eq, Nat.cast_mul, Nat.cast_pow, Nat.cast_ofNat, zpow_natCast]

/-- A whole mantissa is rounded after it has got digits enough. -/
theorem exists_round {m : Nat} {e : Int} (hm : m ≠ 0) :
    ∃ m₀ e₀, Given m₀ e₀ .exact (m * 2 ^ e) ∧
      ∀ sign, UnpackedFloat.round Format.binary32 sign m e = roundWithAccuracy Format.binary32 sign m₀ e₀ .exact := by
  generalize hT : Format.binary32.targetExponent (totalExponent m e) = T
  refine ⟨m <<< (e - T).toNat, e - (e - T).toNat, ?_, fun sign => ?_⟩
  · have htotal : totalExponent (m <<< (e - T).toNat) (e - (e - T).toNat) = totalExponent m e := by
      rw [totalExponent, log2_shiftLeft hm, totalExponent]
      omega
    have hvalue : (m : ℚ) * 2 ^ e = (m <<< (e - T).toNat : Nat) * 2 ^ (e - (e - T).toNat) := by
      rw [cast_shiftLeft, mul_assoc, ← zpow_add₀ two_ne_zero, add_sub_cancel]
    rw [hvalue]
    apply given_exact
    rw [htotal, hT]
    omega
  · unfold UnpackedFloat.round decreaseExponent
    rw [hT]

/-- The leading digits bound a positive number from both sides. -/
theorem totalExponent_bounds {m : Nat} (hm : m ≠ 0) (e : Int) :
    (2 : ℚ) ^ (totalExponent m e - 1) ≤ m * 2 ^ e ∧ m * (2 : ℚ) ^ e < 2 ^ totalExponent m e := by
  have hexact : Holds (.ofMantissaAndAccuracy m .exact) (m * 2 ^ e / 2 ^ e) := by
    rw [mul_div_assoc, div_self (zpow_ne_zero e two_ne_zero), mul_one]
    exact holds_exact m
  exact hexact.totalExponent_bounds hm

/-- A quotient has at least as many digits as its numerator has more than its denominator. -/
theorem zpow_le_quotient {m₁ m₂ : Nat} (h₁ : m₁ ≠ 0) (h₂ : m₂ ≠ 0) (e₁ e₂ : Int) :
    (2 : ℚ) ^ (totalExponent m₁ e₁ - totalExponent m₂ e₂ - 1) ≤ m₁ * 2 ^ e₁ / (m₂ * 2 ^ e₂) := by
  have hden : (0 : ℚ) < m₂ * 2 ^ e₂ := by positivity
  rw [le_div_iff₀ hden]
  have hmul := mul_le_mul_of_nonneg_left (totalExponent_bounds h₂ e₂).2.le
    (zpow_nonneg zero_le_two (totalExponent m₁ e₁ - totalExponent m₂ e₂ - 1) : (0 : ℚ) ≤ _)
  rw [← zpow_add₀ two_ne_zero] at hmul
  refine hmul.trans (le_trans (le_of_eq ?_) (totalExponent_bounds h₁ e₁).1)
  congr 1
  omega

/-- The quotient of two numbers, with what the division leaves. -/
theorem given_divCore {m₁ m₂ : Nat} {e₁ e₂ : Int} (h₁ : m₁ ≠ 0) (h₂ : m₂ ≠ 0) :
    Given (divCore Format.binary32 m₁ e₁ m₂ e₂).1 (divCore Format.binary32 m₁ e₁ m₂ e₂).2.1
      (divCore Format.binary32 m₁ e₁ m₂ e₂).2.2 (m₁ * 2 ^ e₁ / (m₂ * 2 ^ e₂)) := by
  have hm₂ : (m₂ : ℚ) ≠ 0 := by exact_mod_cast h₂
  have hsize := zpow_le_quotient h₁ h₂ e₁ e₂
  unfold divCore
  dsimp only
  generalize hT : Format.binary32.targetExponent (totalExponent m₁ e₁ - totalExponent m₂ e₂) = T
  generalize ht : min (e₁ - e₂) T = t
  generalize hs : (e₁ - e₂ - t).toNat = s
  have hvalue : (m₁ : ℚ) * 2 ^ e₁ / (m₂ * 2 ^ e₂) / 2 ^ t = (m₁ <<< s : Nat) / m₂ := by
    have hexponent : e₁ = s + t + e₂ := by omega
    rw [cast_shiftLeft, hexponent, zpow_add₀ two_ne_zero, zpow_add₀ two_ne_zero]
    field_simp
  have hholds : Holds (.ofMantissaAndAccuracy (m₁ <<< s / m₂) (accuracyOfFraction (m₁ <<< s % m₂) m₂))
      (m₁ * 2 ^ e₁ / (m₂ * 2 ^ e₂) / 2 ^ t) := by
    have hdivision : ((m₁ <<< s : Nat) : ℚ) / m₂ = (m₁ <<< s / m₂ : Nat) + (m₁ <<< s % m₂ : Nat) / m₂ := by
      have hnat : ((m₂ * (m₁ <<< s / m₂) + m₁ <<< s % m₂ : Nat) : ℚ) = (m₁ <<< s : Nat) := by
        rw [Nat.div_add_mod]
      rw [← hnat]
      push_cast
      field_simp
    rw [hvalue, hdivision]
    exact holds_fraction (Nat.mod_lt _ (Nat.pos_of_ne_zero h₂)) _
  refine ⟨hholds, ?_⟩
  rw [targetExponent_eq] at hT ⊢
  by_cases hq : m₁ <<< s / m₂ = 0
  · have hunit : (0 : ℚ) < 2 ^ t := by positivity
    have hlt := hholds.lt_mantissa_add_one
    rw [mantissa_ofMantissaAndAccuracy, hq, Nat.cast_zero, zero_add, div_lt_one hunit] at hlt
    have hexponent := (zpow_lt_zpow_iff_right₀ one_lt_two).mp (hsize.trans_lt hlt)
    omega
  · have hbounds := hholds.totalExponent_bounds
    rw [mantissa_ofMantissaAndAccuracy] at hbounds
    have hexponent := (zpow_lt_zpow_iff_right₀ one_lt_two).mp (hsize.trans_lt (hbounds hq).2)
    omega

end ExactNeighbors.Rounding
