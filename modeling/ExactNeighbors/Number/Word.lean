/-!
# Sizes that fit a register

Labels, slots and lengths are natural numbers below `2 ^ 64`. A sum or a product of two may leave
that range. A program that is built with overflow checks stops there; one that is built without them
goes on with the remainder. Sizes are checked everywhere here (`product?`), except where `Overflow`
is a parameter.
-/
namespace ExactNeighbors.Word

/-- It is `2 ^ 64`. -/
def size : Nat := 0x10000000000000000

/-- What becomes of a size that no register holds. -/
inductive Overflow where
  | trap
  | wrap
deriving DecidableEq, Repr

namespace Overflow

/-- What a register holds of a size, if the program goes on. -/
def fit? : Overflow → Nat → Option Nat
  | .trap, n => if n < size then some n else none
  | .wrap, n => some (n % size)

theorem fit?_of_lt (overflow : Overflow) {n : Nat} (h : n < size) : overflow.fit? n = some n := by
  cases overflow with
  | trap => exact if_pos h
  | wrap => rw [fit?, Nat.mod_eq_of_lt h]

theorem eq_of_fit?_trap {n m : Nat} (h : trap.fit? n = some m) : m = n := by
  dsimp only [fit?] at h
  split at h
  · exact (Option.some.inj h).symm
  · cases h

theorem fit?_trap_of_le {n : Nat} (h : size ≤ n) : trap.fit? n = none := if_neg (Nat.not_lt.mpr h)

end Overflow

/-- The product of two sizes, when it is a size. -/
def product? (a b : Nat) : Option Nat := Overflow.trap.fit? (a * b)

def longestBuffer : Nat := 0x7fffffffffffffff

theorem product?_eq_none_iff {a b : Nat} : product? a b = none ↔ size ≤ a * b := by
  constructor
  · intro h
    refine Nat.not_lt.mp fun hlt => ?_
    rw [product?, Overflow.fit?_of_lt _ hlt] at h
    cases h
  · exact Overflow.fit?_trap_of_le

theorem product?_eq_some_iff {a b n : Nat} : product? a b = some n ↔ a * b = n ∧ n < size := by
  constructor
  · intro h
    have hlt : a * b < size := Nat.not_le.mp fun hle => by
      rw [product?_eq_none_iff.mpr hle] at h
      cases h
    rw [product?, Overflow.fit?_of_lt _ hlt] at h
    cases h
    exact ⟨rfl, hlt⟩
  · rintro ⟨rfl, hlt⟩
    exact Overflow.fit?_of_lt _ hlt

end ExactNeighbors.Word
