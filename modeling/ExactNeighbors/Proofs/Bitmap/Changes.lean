import Mathlib.Data.List.GetD
import Mathlib.Order.Basic
import ExactNeighbors.Proofs.Bitmap
import ExactNeighbors.Store.Write

/-! # Bitmaps change as lists of bits do

A bitmap that starts empty and is grown, written to and cleared shows, after every change, the list
of bits to which the same was done. Only positions that are there are written to: this keeps the
bits behind the last one zero, and so the number of ones right.
-/
namespace ExactNeighbors

namespace Bitmap

inductive Change where
  | push (bit : Bool)
  | set (i : Nat)
  | unset (i : Nat)
  | clear
deriving DecidableEq

def after (b : Bitmap) : Change → Bitmap
  | .push bit => b.push bit
  | .set i => b.set i
  | .unset i => b.unset i
  | .clear => empty

def run (b : Bitmap) (changes : List Change) : Bitmap := changes.foldl after b

/-- Resetting a store clears its tombstones. -/
example {α : Type} (s : Store α) : s.reset.tombstones = s.tombstones.after .clear := rfl

end Bitmap

namespace Bits

variable {bits : List Bool} {i j : Nat}

def after (bits : List Bool) : Bitmap.Change → List Bool
  | .push bit => bits ++ [bit]
  | .set i => bits.set i true
  | .unset i => bits.set i false
  | .clear => []

def run (bits : List Bool) (changes : List Bitmap.Change) : List Bool := changes.foldl after bits

/-- Only a position that is there is written to. -/
def Allows (bits : List Bool) : Bitmap.Change → Prop
  | .set i | .unset i => i < bits.length
  | .push _ | .clear => True

def AllowsAll : List Bool → List Bitmap.Change → Prop
  | _, [] => True
  | bits, change :: changes => Allows bits change ∧ AllowsAll (after bits change) changes

instance decidableAllows (bits : List Bool) : DecidablePred (Allows bits)
  | .set i | .unset i => inferInstanceAs (Decidable (i < bits.length))
  | .push _ | .clear => inferInstanceAs (Decidable True)

instance decidableAllowsAll : (bits : List Bool) → DecidablePred (AllowsAll bits)
  | _, [] => inferInstanceAs (Decidable True)
  | bits, change :: changes =>
    have := decidableAllowsAll (after bits change) changes
    inferInstanceAs (Decidable (Allows bits change ∧ AllowsAll (after bits change) changes))

theorem getD_concat (bits : List Bool) (bit : Bool) (j : Nat) :
    (bits ++ [bit]).getD j false = (bits.getD j false || (bit && decide (j = bits.length))) := by
  rcases Nat.lt_trichotomy j bits.length with h | rfl | h
  · rw [List.getD_append _ _ _ _ h]
    simp [Nat.ne_of_lt h]
  · simp
  · have hend : (bits ++ [bit]).length ≤ j := by simpa [Nat.succ_le_iff] using h
    rw [List.getD_eq_default _ _ hend, List.getD_eq_default _ _ (Nat.le_of_lt h)]
    simp [Nat.ne_of_gt h]

theorem getD_set (hi : i < bits.length) (bit : Bool) (j : Nat) :
    (bits.set i bit).getD j false = if j = i then bit else bits.getD j false := by
  by_cases h : j = i
  · subst h
    simp [hi]
  · simp [h, Ne.symm h]

end Bits

namespace Bitmap

variable {b : Bitmap} {bits : List Bool}

structure Shows (b : Bitmap) (bits : List Bool) : Prop where
  sound : b.Sound
  length_eq : b.length = bits.length
  get_eq : ∀ i, b.get i = bits.getD i false

theorem shows_empty : Shows empty [] where
  sound := sound_empty
  length_eq := rfl
  get_eq _ := rfl

theorem Shows.push (h : Shows b bits) (bit : Bool) : Shows (b.push bit) (bits ++ [bit]) where
  sound := h.sound.push bit
  length_eq := by rw [length_push, h.length_eq, List.length_append, List.length_singleton]
  get_eq j := by rw [h.sound.get_push, h.get_eq, h.length_eq, Bits.getD_concat]

theorem Shows.set {i : Nat} (h : Shows b bits) (hi : i < bits.length) :
    Shows (b.set i) (bits.set i true) := by
  have hi' : i < b.length := by rwa [h.length_eq]
  refine ⟨h.sound.set hi', by rw [length_set, h.length_eq, List.length_set], fun j => ?_⟩
  rw [h.sound.get_set hi', h.get_eq, Bits.getD_set hi]
  by_cases hj : j = i <;> simp [hj]

theorem Shows.unset {i : Nat} (h : Shows b bits) (hi : i < bits.length) :
    Shows (b.unset i) (bits.set i false) := by
  have hi' : i < b.length := by rwa [h.length_eq]
  refine ⟨h.sound.unset hi', by rw [length_unset, h.length_eq, List.length_set], fun j => ?_⟩
  rw [h.sound.get_unset hi', h.get_eq, Bits.getD_set hi]
  by_cases hj : j = i <;> simp [hj]

/-- What one change keeps. -/
theorem Shows.after (h : Shows b bits) {change : Change} (hc : Bits.Allows bits change) :
    Shows (b.after change) (Bits.after bits change) := by
  cases change with
  | push bit => exact h.push bit
  | set i => exact h.set hc
  | unset i => exact h.unset hc
  | clear => exact shows_empty

theorem Shows.run (h : Shows b bits) {changes : List Change} (hc : Bits.AllowsAll bits changes) :
    Shows (b.run changes) (Bits.run bits changes) := by
  induction changes generalizing b bits with
  | nil => exact h
  | cons change changes ih => exact ih (h.after hc.1) hc.2

theorem Shows.toList_eq (h : Shows b bits) : b.toList = bits := by
  refine List.ext_getElem (by simp [toList, h.length_eq]) fun i _ hi => ?_
  simp [toList, h.get_eq, hi]

/-- The ones of all words are those of the bits. -/
theorem Sound.countOnes_eq_count (h : Sound b) : b.countOnes = b.toList.count true := by
  rw [h.countOnes_eq, toList, List.count_eq_countP, List.countP_map]
  exact List.countP_congr fun i _ => by simp

/-- A bit that a word has behind the last position is zero. -/
theorem Sound.getLsbD_eq_false (h : Sound b) {n i : Nat} (hn : n < b.words.length) (hi : i < 64)
    (hle : b.length ≤ 64 * n + i) : b.words[n].toBitVec.getLsbD i = false := by
  have hraw := h.raw_eq_false (64 * n + i) hle
  have hword : (64 * n + i) / 64 = n := by omega
  have hplace : (64 * n + i) % 64 = i := by omega
  rwa [raw, hword, hplace, List.getD_eq_getElem _ _ hn] at hraw

/-- After changes that write only to positions that are there, an empty bitmap has become the list
of bits that the same changes lead to: it has these bits and no others, as many ones, as many words
as their number asks for, and nothing behind the last of them. -/
theorem run_eq_bits (changes : List Change) (h : Bits.AllowsAll [] changes) :
    let b := empty.run changes
    let bits := Bits.run [] changes
    (b.length = bits.length ∧ b.toList = bits) ∧
    (∀ i (hi : i < bits.length), b.get i = bits[i]) ∧
    (∀ i, bits.length ≤ i → b.get i = false) ∧
    b.countOnes = bits.count true ∧
    b.words.length = (bits.length + 63) / 64 ∧
    ∀ n i, (hn : n < b.words.length) → i < 64 → bits.length ≤ 64 * n + i →
      b.words[n].toBitVec.getLsbD i = false := by
  intro b bits
  have hs : Shows b bits := shows_empty.run h
  have hlist := hs.toList_eq
  have hwords := hs.sound.words_length
  rw [hs.length_eq] at hwords
  refine ⟨⟨hs.length_eq, hlist⟩, ?_, ?_, ?_, hwords, ?_⟩
  · intro i hi
    rw [hs.get_eq, List.getD_eq_getElem _ _ hi]
  · intro i hi
    exact get_eq_false (hs.length_eq.trans_le hi)
  · rw [hs.sound.countOnes_eq_count, hlist]
  · intro n i hn hi hle
    exact hs.sound.getLsbD_eq_false hn hi (hs.length_eq.trans_le hle)

/-- The sixty-fifth bit opens a word; what was there before a clear does not come back. -/
theorem run_eq_bits_word :
    let changes : List Change := [.push true, .push true, .clear] ++
      List.replicate 65 (.push true) ++ [.unset 63, .push false, .unset 0, .set 65]
    Bits.AllowsAll [] changes ∧
    let b := empty.run changes
    b.get 63 = false ∧ b.get 64 = true ∧ b.get 66 = false ∧ b.countOnes = 64 ∧
      b.words.length = 2 := by
  intro changes
  have hallowed : Bits.AllowsAll [] changes := by decide +kernel
  obtain ⟨-, hget, hbehind, hones, hwords, -⟩ := run_eq_bits changes hallowed
  refine ⟨hallowed, ?_, ?_, ?_, ?_, ?_⟩
  · exact (hget 63 (by decide +kernel)).trans (by decide +kernel)
  · exact (hget 64 (by decide +kernel)).trans (by decide +kernel)
  · exact hbehind 66 (by decide +kernel)
  · exact hones.trans (by decide +kernel)
  · exact hwords.trans (by decide +kernel)

end Bitmap
end ExactNeighbors
