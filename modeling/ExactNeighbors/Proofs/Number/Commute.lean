import ExactNeighbors.Distance.Metric
import ExactNeighbors.Proofs.Number.Canonical

/-! # Operations whose operands may be exchanged

Sums and products do not depend on the order of their operands, and the differences of two numbers
taken both ways are equally large. The smaller and the larger of two numbers depend on it only where
both are zero. That difference is lost in a sum which is not `-0.0`, and adding never makes a sum
`-0.0` that was not.
-/
namespace ExactNeighbors.Score

open Float.Model (Format UnpackedFloat totalExponent)
open Float.Model.UnpackedFloat
open Rounding (Canonical)

variable {x y : Score} {u v : UnpackedFloat}

theorem unpacked_add_comm (u v : UnpackedFloat) :
    UnpackedFloat.add Format.binary32 u v = UnpackedFloat.add Format.binary32 v u := by
  cases u with
  | notANumber => cases v <;> rfl
  | infinity s =>
    cases v with
    | infinity t => cases s <;> cases t <;> rfl
    | _ => rfl
  | zero s =>
    cases v with
    | zero t => cases s <;> cases t <;> rfl
    | _ => rfl
  | finite s m e hm =>
    cases v with
    | finite t n f hn => simp [UnpackedFloat.add, min_comm, Int.add_comm]
    | _ => rfl

theorem add_comm (x y : Score) : x + y = y + x :=
  congrArg packed (unpacked_add_comm (unpacked x) (unpacked y))

theorem sign_mul_comm (s t : Sign) : s * t = t * s := by
  cases s <;> cases t <;> rfl

theorem unpacked_mul_comm (u v : UnpackedFloat) :
    UnpackedFloat.mul Format.binary32 u v = UnpackedFloat.mul Format.binary32 v u := by
  cases u <;> cases v <;>
    simp [UnpackedFloat.mul, sign_mul_comm, Nat.mul_comm, Int.add_comm]

theorem mul_comm (x y : Score) : x * y = y * x :=
  congrArg packed (unpacked_mul_comm (unpacked x) (unpacked y))

/-! ## Differences taken both ways -/

def SameSize (x y : Score) : Prop := (unpacked x).abs = (unpacked y).abs

theorem abs_roundWithAccuracy (s t : Sign) (m : Nat) (e : Int) (a : Accuracy) :
    (roundWithAccuracy Format.binary32 s m e a).abs =
      (roundWithAccuracy Format.binary32 t m e a).abs := by
  unfold roundWithAccuracy
  dsimp only
  split <;> rfl

theorem abs_normalize_neg (n : Int) (e : Int) :
    (normalize Format.binary32 (-n) e .positive).abs =
      (normalize Format.binary32 n e .positive).abs := by
  unfold UnpackedFloat.normalize
  rcases lt_trichotomy n 0 with h | rfl | h
  · rw [compare_lt_iff_lt.mpr h, compare_gt_iff_gt.mpr (Int.neg_pos.mpr h)]
    exact abs_roundWithAccuracy _ _ _ _ _
  · rfl
  · rw [compare_gt_iff_gt.mpr h, compare_lt_iff_lt.mpr (Int.neg_neg_of_pos h), Int.neg_neg]
    exact abs_roundWithAccuracy _ _ _ _ _

theorem abs_sub_unpacked (u v : UnpackedFloat) :
    (UnpackedFloat.sub Format.binary32 u v).abs = (UnpackedFloat.sub Format.binary32 v u).abs := by
  cases u with
  | notANumber => cases v <;> rfl
  | infinity s =>
    cases v with
    | infinity t => cases s <;> cases t <;> rfl
    | _ => rfl
  | zero s =>
    cases v with
    | zero t => cases s <;> cases t <;> rfl
    | _ => rfl
  | finite s m e hm =>
    cases v with
    | finite t n f hn =>
      simp only [UnpackedFloat.sub, min_comm f e]
      rw [← Int.neg_sub]
      exact abs_normalize_neg _ _
    | _ => rfl

/-- The sign bit decides nothing but the sign. -/
theorem abs_unpack_packComponents (s t : Sign) (exponent : BitVec 8) (mantissa : BitVec 23) :
    (UnpackedFloat.unpack Format.binary32 (packComponents Format.binary32 s exponent mantissa)).abs =
      (UnpackedFloat.unpack Format.binary32
        (packComponents Format.binary32 t exponent mantissa)).abs := by
  unfold UnpackedFloat.unpack
  simp only [unpackExponent_packComponents, unpackMantissa_packComponents,
    unpackSign_packComponents]
  by_cases hinf : exponent = -1#8
  · rw [if_pos hinf, if_pos hinf]
    by_cases hm : mantissa = 0#23
    · rw [if_pos hm, if_pos hm]
      rfl
    · rw [if_neg hm, if_neg hm]
  · rw [if_neg hinf, if_neg hinf]
    by_cases hzero : exponent = 0#8
    · rw [if_pos hzero, if_pos hzero]
      by_cases hm : mantissa = 0#23
      · rw [dif_pos hm, dif_pos hm]
        rfl
      · rw [dif_neg hm, dif_neg hm]
        rfl
    · rw [if_neg hzero, if_neg hzero]
      rfl

theorem sameSize_packed (h : u.abs = v.abs) : SameSize (packed u) (packed v) := by
  rw [SameSize, unpacked_packed_eq, unpacked_packed_eq]
  cases u <;> cases v <;> cases h
  case notANumber => rfl
  case infinity s t => exact abs_unpack_packComponents s t _ _
  case zero s t => exact abs_unpack_packComponents s t _ _
  case finite s m e hm t hn =>
    unfold UnpackedFloat.pack
    dsimp only
    split
    · exact abs_unpack_packComponents s t _ _
    · split
      · exact abs_unpack_packComponents s t _ _
      · exact abs_unpack_packComponents s t _ _

theorem sameSize_sub (x y : Score) : SameSize (x - y) (y - x) :=
  sameSize_packed (abs_sub_unpacked (unpacked x) (unpacked y))

theorem SameSize.abs_eq (h : SameSize x y) : x.abs = y.abs := congrArg packed h

theorem unpacked_mul_self_eq (h : u.abs = v.abs) :
    UnpackedFloat.mul Format.binary32 u u = UnpackedFloat.mul Format.binary32 v v := by
  cases u <;> cases v <;> cases h
  case notANumber => rfl
  case infinity s t => cases s <;> cases t <;> rfl
  case zero s t => cases s <;> cases t <;> rfl
  case finite s m e hm t hn => cases s <;> cases t <;> rfl

theorem SameSize.mul_self_eq (h : SameSize x y) : x * x = y * y :=
  congrArg packed (unpacked_mul_self_eq h)

/-! ## The smaller and the larger of two numbers -/

def IsZero (x : Score) : Prop := x = zero ∨ x = negZero

/-- The same number, or two zeros. -/
def Alike (x y : Score) : Prop := x = y ∨ IsZero x ∧ IsZero y

theorem Alike.refl (x : Score) : Alike x x := Or.inl rfl

theorem isZero_of_unpacked {s : Sign} (h : unpacked x = .zero s) : IsZero x := by
  cases s with
  | positive => exact Or.inl (eq_of_unpacked_eq h)
  | negative => exact Or.inr (eq_of_unpacked_eq h)

theorem lt_iff : x < y ↔ UnpackedFloat.compare (unpacked x) (unpacked y) = some .lt := by
  have h : x < y ↔ UnpackedFloat.lt (unpacked x) (unpacked y) = true :=
    ⟨fun h => of_decide_eq_true h, fun h => decide_eq_true h⟩
  rw [h, UnpackedFloat.lt, beq_iff_eq]

theorem compare_swap (u v : UnpackedFloat) :
    UnpackedFloat.compare v u = (UnpackedFloat.compare u v).map Ordering.swap := by
  have hthen : ∀ (e f : Int) (m n : Nat),
      (compare f e).then (compare n m) = ((compare e f).then (compare m n)).swap := by
    intro e f m n
    rw [Ordering.swap_then, ← Int.compare_swap e f, ← Nat.compare_swap m n]
  cases u with
  | notANumber => cases v <;> rfl
  | infinity s => cases v with
    | infinity t => cases s <;> cases t <;> rfl
    | notANumber => cases s <;> rfl
    | zero t => cases s <;> rfl
    | finite t n f hn => cases s <;> rfl
  | zero s => cases v with
    | infinity t => cases t <;> rfl
    | finite t n f hn => cases t <;> rfl
    | _ => rfl
  | finite s m e hm => cases v with
    | notANumber => cases s <;> rfl
    | infinity t => cases s <;> cases t <;> rfl
    | zero t => cases s <;> rfl
    | finite t n f hn =>
      cases s <;> cases t <;> simp [UnpackedFloat.compare, hthen e f m n]

theorem eq_of_compare (h : UnpackedFloat.compare u v = some .eq) :
    u = v ∨ ∃ s t, u = .zero s ∧ v = .zero t := by
  cases u with
  | notANumber => cases h
  | infinity s => cases v with
    | notANumber => cases s <;> cases h
    | infinity t => cases s <;> cases t <;> first | exact Or.inl rfl | cases h
    | zero t => cases s <;> cases h
    | finite t n f hn => cases s <;> cases h
  | zero s => cases v with
    | notANumber => cases h
    | infinity t => cases t <;> cases h
    | zero t => exact Or.inr ⟨s, t, rfl, rfl⟩
    | finite t n f hn => cases t <;> cases h
  | finite s m e hm => cases v with
    | notANumber => cases s <;> cases h
    | infinity t => cases s <;> cases t <;> cases h
    | zero t => cases s <;> cases h
    | finite t n f hn =>
      left
      cases s <;> cases t <;> simp [UnpackedFloat.compare, Ordering.then_eq_eq] at h ⊢
      · exact ⟨h.2, h.1⟩
      · exact ⟨h.2, h.1⟩

theorem compare_ne_none (hu : u ≠ .notANumber) (hv : v ≠ .notANumber) :
    UnpackedFloat.compare u v ≠ none := by
  cases u with
  | notANumber => exact absurd rfl hu
  | infinity s => cases v with
    | notANumber => exact absurd rfl hv
    | _ => cases s <;> simp [UnpackedFloat.compare]
  | zero s => cases v with
    | notANumber => exact absurd rfl hv
    | infinity t => cases t <;> simp [UnpackedFloat.compare]
    | zero t => simp [UnpackedFloat.compare]
    | finite t n f hn => cases t <;> simp [UnpackedFloat.compare]
  | finite s m e hm => cases v with
    | notANumber => exact absurd rfl hv
    | infinity t => cases s <;> cases t <;> simp [UnpackedFloat.compare]
    | zero t => cases s <;> simp [UnpackedFloat.compare]
    | finite t n f hn => cases s <;> cases t <;> simp [UnpackedFloat.compare]

/-- Of two numbers one is below the other, or nothing can tell them apart but the sign of a zero. -/
theorem lt_or_lt_or_alike (hx : x.isNaN = false) (hy : y.isNaN = false) :
    x < y ∧ ¬y < x ∨ y < x ∧ ¬x < y ∨ ¬x < y ∧ ¬y < x ∧ Alike x y := by
  have hne := compare_ne_none (unpacked_ne_notANumber hx) (unpacked_ne_notANumber hy)
  have hswap := compare_swap (unpacked x) (unpacked y)
  simp only [lt_iff]
  rw [hswap]
  cases hcompare : UnpackedFloat.compare (unpacked x) (unpacked y) with
  | none => exact absurd hcompare hne
  | some order =>
    cases order with
    | lt => simp
    | gt => simp
    | eq =>
      have halike : Alike x y := by
        rcases eq_of_compare hcompare with h | ⟨s, t, hs, ht⟩
        · exact Or.inl (eq_of_unpacked_eq h)
        · exact Or.inr ⟨isZero_of_unpacked hs, isZero_of_unpacked ht⟩
      simp [halike]

/-- Exchanging the operands changes neither extreme, but for the sign of a zero. -/
theorem extremes_comm (x y : Score) :
    Alike (larger x y) (larger y x) ∧ Alike (smaller x y) (smaller y x) := by
  unfold larger smaller
  cases hx : x.isNaN with
  | true =>
    cases hy : y.isNaN with
    | true => simp [eq_of_isNaN hx hy, Alike.refl]
    | false => simp [Alike.refl]
  | false =>
    cases hy : y.isNaN with
    | true => simp [Alike.refl]
    | false =>
      rcases lt_or_lt_or_alike hx hy with ⟨h, h'⟩ | ⟨h, h'⟩ | ⟨h, h', halike⟩
      · simp [h, h', Alike.refl]
      · simp [h, h', Alike.refl]
      · simp [h, h', halike]

/-! ## Sums that are not `-0.0` -/

/-- The numbers that packing keeps or makes infinite. -/
inductive Settled : UnpackedFloat → Prop where
  | notANumber : Settled .notANumber
  | infinity (s : Sign) : Settled (.infinity s)
  | zero (s : Sign) : Settled (.zero s)
  | finite (s : Sign) {m : Nat} {e : Int} (h : Canonical m e) : Settled (.finite s m e h.pos)

theorem settled_unpacked (x : Score) : Settled (unpacked x) := by
  cases hx : unpacked x with
  | notANumber => exact .notANumber
  | infinity s => exact .infinity s
  | zero s => exact .zero s
  | finite s m e hm => exact .finite s (canonical_of_unpacked hx).1

/-- Only `-0.0` is packed into `-0.0`. -/
theorem packed_ne_negZero (hu : Settled u) (hne : u ≠ .zero .negative) : packed u ≠ negZero := by
  intro h
  have hunpacked : unpacked (packed u) = .zero .negative := congrArg unpacked h
  cases hu with
  | notANumber => cases hunpacked
  | infinity s => cases s <;> cases hunpacked
  | zero s => cases s with
    | positive => cases hunpacked
    | negative => exact hne rfl
  | @finite s m e hc =>
    by_cases he : e ≤ 104
    · rw [unpacked_packed hc he] at hunpacked
      cases hunpacked
    · rw [packed_overflow (by omega)] at hunpacked
      cases s <;> cases hunpacked

theorem exists_round_canonical {m : Nat} {e : Int} (hm : m ≠ 0) (he : -149 ≤ e) :
    ∃ n f, ∃ hc : Canonical n f,
      ∀ s, UnpackedFloat.round Format.binary32 s m e = .finite s n f hc.pos := by
  obtain ⟨m₀, e₀, hgiven, hround⟩ := Rounding.exists_round (e := e) hm
  have hvalue : (2 : ℚ) ^ (-149 : Int) ≤ m * 2 ^ e := by
    have hone : (1 : ℚ) ≤ m := by exact_mod_cast Nat.one_le_iff_ne_zero.mpr hm
    calc (2 : ℚ) ^ (-149 : Int) ≤ 2 ^ e := zpow_le_zpow_right₀ one_le_two he
      _ ≤ m * 2 ^ e := le_mul_of_one_le_left (by positivity) hone
  obtain ⟨n, f, hc, hfinite⟩ := hgiven.exists_canonical hvalue
  exact ⟨n, f, hc, fun s => (hround s).trans (hfinite s)⟩

/-- An exact sum is `0.0`, or it is rounded to a number that is no zero. -/
theorem settled_normalize {n e : Int} (he : -149 ≤ e) :
    Settled (UnpackedFloat.normalize Format.binary32 n e .positive) ∧
      UnpackedFloat.normalize Format.binary32 n e .positive ≠ .zero .negative := by
  unfold UnpackedFloat.normalize
  rcases lt_trichotomy n 0 with h | rfl | h
  · obtain ⟨m, f, hc, hround⟩ := exists_round_canonical (m := (-n).toNat) (by omega) he
    rw [compare_lt_iff_lt.mpr h]
    dsimp only
    rw [hround]
    exact ⟨.finite _ hc, by simp⟩
  · exact ⟨.zero _, by simp⟩
  · obtain ⟨m, f, hc, hround⟩ := exists_round_canonical (m := n.toNat) (by omega) he
    rw [compare_gt_iff_gt.mpr h]
    dsimp only
    rw [hround]
    exact ⟨.finite _ hc, by simp⟩

theorem add_isZero (hx : x ≠ negZero) (hy : IsZero y) : x + y = x := by
  rw [add_comm]
  rcases hy with rfl | rfl
  · exact zero_add_of_ne hx
  · exact negZero_add x

theorem settled_add (hu : Settled u) (hv : Settled v) (hne : u ≠ .zero .negative) :
    Settled (UnpackedFloat.add Format.binary32 u v) ∧
      UnpackedFloat.add Format.binary32 u v ≠ .zero .negative := by
  cases hu with
  | notANumber => exact ⟨.notANumber, by simp [UnpackedFloat.add]⟩
  | infinity s => cases hv with
    | notANumber => exact ⟨.notANumber, by simp [UnpackedFloat.add]⟩
    | infinity t =>
      by_cases hst : s = t
      · simp [UnpackedFloat.add, hst, Settled.infinity]
      · simp [UnpackedFloat.add, hst, Settled.notANumber]
    | zero t => exact ⟨.infinity s, by simp [UnpackedFloat.add]⟩
    | finite t hn => exact ⟨.infinity s, by simp [UnpackedFloat.add]⟩
  | zero s =>
    obtain rfl : s = .positive := by
      cases s with
      | positive => rfl
      | negative => exact absurd rfl hne
    by_cases hzero : v = .zero .negative
    · subst hzero
      exact ⟨.zero .positive, fun h => by cases h⟩
    · rw [add_zero hzero]
      exact ⟨hv, hzero⟩
  | @finite s m e hm => cases hv with
    | notANumber => exact ⟨.notANumber, by simp [UnpackedFloat.add]⟩
    | infinity t => exact ⟨.infinity t, by simp [UnpackedFloat.add]⟩
    | zero t => exact ⟨.finite s hm, by simp [UnpackedFloat.add]⟩
    | @finite t n f hn => exact settled_normalize (le_min hm.le_exponent hn.le_exponent)

/-- A sum is `-0.0` only if both operands are. -/
theorem add_ne_negZero (hx : x ≠ negZero) (y : Score) : x + y ≠ negZero := by
  have hne : unpacked x ≠ .zero .negative := fun h => hx (eq_of_unpacked_eq h)
  obtain ⟨hsettled, hadd⟩ := settled_add (settled_unpacked x) (settled_unpacked y) hne
  exact packed_ne_negZero hsettled hadd

/-- A sum that is not `-0.0` takes in either zero without a trace. -/
theorem Alike.add_eq {z : Score} (h : Alike x y) (hz : z ≠ negZero) : z + x = z + y := by
  rcases h with rfl | ⟨hx, hy⟩
  · rfl
  · rw [add_isZero hz hx, add_isZero hz hy]

theorem total_eq_of_alike {start : Score} {terms terms' : List Score}
    (h : List.Forall₂ Alike terms terms') (hstart : start ≠ negZero) :
    total start terms = total start terms' := by
  induction h generalizing start with
  | nil => rfl
  | cons hterm _ ih =>
    simp only [total, List.foldl_cons] at ih ⊢
    rw [hterm.add_eq hstart]
    exact ih (add_ne_negZero hstart _)

end ExactNeighbors.Score
