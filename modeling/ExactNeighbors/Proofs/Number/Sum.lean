import ExactNeighbors.Proofs.Number.Key

/-! # Sums that start from either zero

Adding onto `-0.0` changes no number, and adding onto `0.0` changes only `-0.0`. Hence a sum shows
from which zero it was started only where nothing but `-0.0` is added. A square is never `-0.0`,
whatever is squared.
-/
namespace ExactNeighbors.Score

open Float.Model (Format UnpackedFloat)
open Float.Model.UnpackedFloat

variable {x y : Score} {u : UnpackedFloat}

def unpacked (x : Score) : UnpackedFloat := x.toModel.unpack

def packed (u : UnpackedFloat) : Score := .ofModel (.pack u)

theorem packComponents_unpack (b : BitVec Format.binary32.numBits) :
    packComponents Format.binary32 (Sign.ofBitVec (unpackSign b)) (unpackExponent b)
      (unpackMantissa b) = b := by
  have hsign : ∀ sign : BitVec 1, (Sign.ofBitVec sign).toBitVec = sign := by decide
  have hlt : b.toNat < 2 ^ 32 := b.isLt
  apply BitVec.eq_of_toNat_eq
  rw [toNat_packComponents, hsign, toNat_unpackSign, toNat_unpackExponent, toNat_unpackMantissa]
  omega

theorem mapSign_id (u : UnpackedFloat) : mapSign id u = u := by
  cases u <;> rfl

theorem unpack_eq_nan {b : BitVec Format.binary32.numBits}
    (h : (UnpackedFloat.unpack Format.binary32 b).isNaN = true) :
    @unpackExponent Format.binary32 b = -1#8 ∧ @unpackMantissa Format.binary32 b ≠ 0#23 ∧
      UnpackedFloat.unpack Format.binary32 b = .notANumber := by
  unfold UnpackedFloat.unpack at h ⊢
  dsimp only at h ⊢
  by_cases hinf : @unpackExponent Format.binary32 b = -1#8
  · rw [if_pos hinf] at h ⊢
    by_cases hm : @unpackMantissa Format.binary32 b = 0#23
    · rw [if_pos hm] at h
      cases h
    · exact ⟨hinf, hm, if_neg hm⟩
  · rw [if_neg hinf] at h
    split at h
    · split at h
      · cases h
      · cases h
    · cases h

/-- No number is changed by taking it apart and packing it again: there is only one NaN. -/
theorem packed_unpacked (x : Score) : packed (unpacked x) = x := by
  apply eq_of_toBits_eq
  apply UInt32.toBitVec_inj.mp
  change UnpackedFloat.pack Format.binary32
    (UnpackedFloat.unpack Format.binary32 x.toBits.toBitVec) = _
  cases hnan : x.isNaN with
  | false =>
    have hpack := pack_mapSign_unpack id x.toBits.toBitVec hnan
    rw [mapSign_id] at hpack
    exact hpack.trans (packComponents_unpack _)
  | true =>
    obtain ⟨hexponent, hmantissa, hunpack⟩ := unpack_eq_nan (b := x.toBits.toBitVec) hnan
    rw [hunpack]
    exact (x.toModel.valid.eq_packedNaN hexponent hmantissa).symm

theorem eq_of_unpacked_eq (h : unpacked x = unpacked y) : x = y := by
  rw [← packed_unpacked x, h, packed_unpacked]

theorem add_eq_packed (x y : Score) :
    x + y = packed (UnpackedFloat.add Format.binary32 (unpacked x) (unpacked y)) := rfl

theorem unpacked_negZero : unpacked negZero = .zero .negative := rfl

theorem unpacked_zero : unpacked zero = .zero .positive := rfl

theorem add_negZero (u : UnpackedFloat) :
    UnpackedFloat.add Format.binary32 (.zero .negative) u = u := by
  cases u with
  | notANumber => rfl
  | infinity sign => rfl
  | zero sign => cases sign <;> rfl
  | finite sign mantissa exponent hm => rfl

theorem add_zero (h : u ≠ .zero .negative) :
    UnpackedFloat.add Format.binary32 (.zero .positive) u = u := by
  cases u with
  | notANumber => rfl
  | infinity sign => rfl
  | zero sign =>
    cases sign with
    | positive => rfl
    | negative => exact absurd rfl h
  | finite sign mantissa exponent hm => rfl

theorem negZero_add (x : Score) : negZero + x = x := by
  rw [add_eq_packed, unpacked_negZero, add_negZero, packed_unpacked]

theorem zero_add_of_ne (h : x ≠ negZero) : zero + x = x := by
  have hne : unpacked x ≠ .zero .negative := by
    intro hx
    rw [← packed_unpacked x, hx, ← unpacked_negZero, packed_unpacked] at h
    exact h rfl
  rw [add_eq_packed, unpacked_zero, add_zero hne, packed_unpacked]

def hasSign : UnpackedFloat → Bool
  | .notANumber => false
  | .infinity sign | .zero sign | .finite sign _ _ _ => sign == .negative

theorem toNat_positive_lt (exponent : BitVec 8) (mantissa : BitVec 23) :
    (packComponents Format.binary32 .positive exponent mantissa).toNat < 2 ^ 31 := by
  have hexponent : exponent.toNat < 2 ^ 8 := exponent.isLt
  have hmantissa : mantissa.toNat < 2 ^ 23 := mantissa.isLt
  have hsign : Sign.positive.toBitVec.toNat = 0 := rfl
  rw [toNat_packComponents, hsign]
  omega

theorem toNat_pack_lt (h : hasSign u = false) :
    (UnpackedFloat.pack Format.binary32 u).toNat < 2 ^ 31 := by
  cases u with
  | notANumber => exact toNat_positive_lt _ _
  | infinity sign =>
    cases sign with
    | negative => cases h
    | positive => exact toNat_positive_lt _ _
  | zero sign =>
    cases sign with
    | negative => cases h
    | positive => exact toNat_positive_lt _ _
  | finite sign mantissa exponent hm =>
    cases sign with
    | negative => cases h
    | positive =>
      unfold UnpackedFloat.pack
      dsimp only
      split
      · exact toNat_positive_lt _ _
      · split
        · exact toNat_positive_lt _ _
        · exact toNat_positive_lt _ _

theorem hasSign_mul_self (u : UnpackedFloat) :
    hasSign (UnpackedFloat.mul Format.binary32 u u) = false := by
  have hsquare : ∀ sign : Sign, sign * sign = .positive := by
    intro sign
    cases sign <;> rfl
  cases u with
  | notANumber => rfl
  | infinity sign => rw [UnpackedFloat.mul, hsquare]; rfl
  | zero sign => rw [UnpackedFloat.mul, hsquare]; rfl
  | finite sign mantissa exponent hm =>
    rw [UnpackedFloat.mul, hsquare, roundWithAccuracy]
    dsimp only
    split
    · rfl
    · rfl

theorem mul_self_ne_negZero (x : Score) : x * x ≠ negZero := by
  intro h
  have hlt := toNat_pack_lt (hasSign_mul_self (unpacked x))
  have hbits : (x * x).toBits.toBitVec.toNat = negZero.toBits.toBitVec.toNat := by rw [h]
  have hzero : negZero.toBits.toBitVec.toNat = 2 ^ 31 := by decide
  rw [hzero] at hbits
  exact Nat.ne_of_lt hlt hbits

theorem zero_add_negZero : zero + negZero = zero := by
  rw [add_eq_packed, unpacked_zero, unpacked_negZero]
  rfl

theorem zero_ne_negZero : zero ≠ negZero := by decide

/-- A sum shows from which zero it was started only if every term is `-0.0`. -/
theorem total_zero_eq_of_mem {term : Score} {terms : List Score} (hmem : term ∈ terms)
    (hterm : term ≠ negZero) : total zero terms = total negZero terms := by
  induction terms with
  | nil => cases hmem
  | cons x terms ih =>
    by_cases hx : x = negZero
    · subst x
      have hrest := ih ((List.mem_cons.mp hmem).resolve_left hterm)
      rw [total, total] at hrest ⊢
      rw [List.foldl_cons, List.foldl_cons, zero_add_negZero, negZero_add, hrest]
    · simp only [total, List.foldl_cons, negZero_add, zero_add_of_ne hx]

/-- Either zero stays as it is while `-0.0` is added. -/
theorem total_eq_start {start : Score} {terms : List Score} (hstart : start + negZero = start)
    (h : ∀ x ∈ terms, x = negZero) : total start terms = start := by
  induction terms with
  | nil => rfl
  | cons x terms ih =>
    rw [total, List.foldl_cons, h x List.mem_cons_self, hstart]
    exact ih fun y hy => h y (List.mem_cons_of_mem x hy)

theorem unpacked_ne_notANumber (h : x.isNaN = false) : unpacked x ≠ .notANumber := by
  intro hx
  have hnan : (unpacked x).isNaN = false := h
  rw [hx] at hnan
  cases hnan

/-- A number that is not NaN equals itself. -/
theorem beq_self (h : x.isNaN = false) : (x == x) = true := by
  change UnpackedFloat.beq (unpacked x) (unpacked x) = true
  rw [UnpackedFloat.beq, beq_iff_eq]
  cases hx : unpacked x with
  | notANumber => exact absurd hx (unpacked_ne_notANumber h)
  | infinity sign => cases sign <;> rfl
  | zero sign => rfl
  | finite sign mantissa exponent hm =>
    unfold UnpackedFloat.compare
    cases sign <;> simp

theorem unpacked_of_isNaN (h : x.isNaN = true) : unpacked x = .notANumber :=
  (unpack_eq_nan (b := x.toBits.toBitVec) h).2.2

theorem eq_of_isNaN (hx : x.isNaN = true) (hy : y.isNaN = true) : x = y :=
  eq_of_unpacked_eq ((unpacked_of_isNaN hx).trans (unpacked_of_isNaN hy).symm)

theorem lt_notANumber (u : UnpackedFloat) : UnpackedFloat.lt u .notANumber = false := by
  cases u with
  | notANumber => rfl
  | infinity sign => cases sign <;> rfl
  | zero sign => rfl
  | finite sign mantissa exponent hm => cases sign <;> rfl

/-- Nothing is below a NaN, and a NaN is below nothing. -/
theorem isNaN_of_lt (h : x < y) : x.isNaN = false ∧ y.isNaN = false := by
  have hlt : UnpackedFloat.lt (unpacked x) (unpacked y) = true := by
    change Float32.lt x y = true at h
    exact of_decide_eq_true h
  constructor
  · rw [Bool.eq_false_iff]
    intro hx
    rw [unpacked_of_isNaN hx] at hlt
    cases hlt
  · rw [Bool.eq_false_iff]
    intro hy
    rw [unpacked_of_isNaN hy, lt_notANumber] at hlt
    cases hlt

end ExactNeighbors.Score
