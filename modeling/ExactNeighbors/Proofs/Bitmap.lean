import ExactNeighbors.Bitmap

/-! # Bitmaps as sequences of bits

A bitmap is sound when it has as many words as its length asks for and every bit behind the last
one is zero. On sound bitmaps the operations change exactly the position that they name, and
counting the ones of all words counts the positions that are set.
-/
namespace ExactNeighbors.Bitmap

variable {b : Bitmap} {i j : Nat}

def raw (b : Bitmap) (i : Nat) : Bool := (b.words.getD (i / 64) 0).toBitVec.getLsbD (i % 64)

structure Sound (b : Bitmap) : Prop where
  words_length : b.words.length = (b.length + 63) / 64
  raw_eq_false : ∀ i, b.length ≤ i → b.raw i = false

theorem sound_empty : Sound empty where
  words_length := rfl
  raw_eq_false i _ := by simp [raw, empty]

theorem get_eq_false (hi : b.length ≤ i) : b.get i = false := by
  simp [get, Nat.not_lt.mpr hi]

theorem lt_length_of_get (h : b.get i = true) : i < b.length := by
  simp only [get, Bool.and_eq_true, decide_eq_true_eq] at h
  exact h.1

/-- Reading needs no look at the length when the bits behind it are zero. -/
theorem Sound.get_eq_raw (h : Sound b) (i : Nat) : b.get i = b.raw i := by
  by_cases hi : i < b.length
  · simp [get, raw, hi]
  · rw [get_eq_false (Nat.not_lt.mp hi), h.raw_eq_false i (Nat.not_lt.mp hi)]

theorem Sound.word_lt (h : Sound b) (hi : i < b.length) : i / 64 < b.words.length := by
  rw [h.words_length]
  omega

theorem getLsbD_mask (i j : Nat) (h : j / 64 = i / 64) :
    (mask i).toBitVec.getLsbD (j % 64) = decide (j = i) := by
  have hi : i % 64 < 64 := Nat.mod_lt _ (by decide)
  have heq : i % 64 = j % 64 ↔ j = i := by omega
  simp only [mask, BitVec.getLsbD_twoPow, hi, decide_true, Bool.true_and, heq]

@[simp] theorem length_set : (b.set i).length = b.length := rfl

@[simp] theorem length_unset : (b.unset i).length = b.length := rfl

@[simp] theorem length_push (bit : Bool) : (b.push bit).length = b.length + 1 := by
  cases bit <;> rfl

/-- Changing one word leaves every bit of the others alone. -/
theorem getD_modify {α : Type} (zero : α) (f : α → α) (words : List α) (m n : Nat)
    (hm : m < words.length) :
    (words.modify m f).getD n zero = if n = m then f (words.getD m zero) else words.getD n zero := by
  by_cases h : n = m
  · subst n
    simp [List.getD_eq_getElem?_getD, hm]
  · simp [List.getD_eq_getElem?_getD, h, Ne.symm h]

theorem raw_set (hi : i / 64 < b.words.length) (j : Nat) :
    (b.set i).raw j = (b.raw j || decide (j = i)) := by
  have hw := getD_modify 0 (· ||| mask i) b.words (i / 64) (j / 64) hi
  simp only [raw, set, hw]
  by_cases h : j / 64 = i / 64
  · simp [h, getLsbD_mask i j h]
  · have hne : j ≠ i := fun e => h (by rw [e])
    simp [h, hne]

theorem raw_unset (hi : i / 64 < b.words.length) (j : Nat) :
    (b.unset i).raw j = (b.raw j && decide (j ≠ i)) := by
  have hw := getD_modify 0 (· &&& ~~~mask i) b.words (i / 64) (j / 64) hi
  simp only [raw, unset, hw]
  by_cases h : j / 64 = i / 64
  · have hj : j % 64 < 64 := Nat.mod_lt _ (by decide)
    simp only [h, ↓reduceIte, UInt64.toBitVec_and, UInt64.toBitVec_not, BitVec.getLsbD_and,
      BitVec.getLsbD_not, hj, getLsbD_mask i j h]
    simp
  · have hne : j ≠ i := fun e => h (by rw [e])
    simp [h, hne]

theorem Sound.set (h : Sound b) (hi : i < b.length) : Sound (b.set i) where
  words_length := by simpa [Bitmap.set] using h.words_length
  raw_eq_false j hj := by
    rw [length_set] at hj
    have hne : j ≠ i := by omega
    simp [raw_set (h.word_lt hi), h.raw_eq_false j hj, hne]

theorem Sound.unset (h : Sound b) (hi : i < b.length) : Sound (b.unset i) where
  words_length := by simpa [Bitmap.unset] using h.words_length
  raw_eq_false j hj := by
    rw [length_unset] at hj
    simp [raw_unset (h.word_lt hi), h.raw_eq_false j hj]

theorem Sound.get_set (h : Sound b) (hi : i < b.length) (j : Nat) :
    (b.set i).get j = (b.get j || decide (j = i)) := by
  rw [(h.set hi).get_eq_raw, raw_set (h.word_lt hi), h.get_eq_raw]

theorem Sound.get_unset (h : Sound b) (hi : i < b.length) (j : Nat) :
    (b.unset i).get j = (b.get j && decide (j ≠ i)) := by
  rw [(h.unset hi).get_eq_raw, raw_unset (h.word_lt hi), h.get_eq_raw]

/-- A new word holds only zeros, so opening one changes no bit. -/
theorem raw_push_false (b : Bitmap) (j : Nat) : (b.push false).raw j = b.raw j := by
  by_cases h : b.length % 64 = 0
  · have hd : (b.words ++ [0]).getD (j / 64) 0 = b.words.getD (j / 64) 0 := by
      simp only [List.getD_eq_getElem?_getD, List.getElem?_append, List.getElem?_singleton]
      split
      · rfl
      · rename_i hlt
        rw [List.getElem?_eq_none (Nat.not_lt.mp hlt)]
        split <;> rfl
    simp only [raw, push, h, ↓reduceIte, Bool.false_eq_true, hd]
  · simp [raw, push, h]

theorem Sound.push_false (h : Sound b) : Sound (b.push false) where
  words_length := by
    have hw := h.words_length
    by_cases hm : b.length % 64 = 0
    · simp only [push, hm, ↓reduceIte, Bool.false_eq_true, List.length_append, List.length_cons,
        List.length_nil, hw]
      omega
    · simp only [push, hm, ↓reduceIte, Bool.false_eq_true, hw]
      omega
  raw_eq_false j hj := by
    rw [length_push] at hj
    rw [raw_push_false]
    exact h.raw_eq_false j (by omega)

theorem Sound.get_push_false (h : Sound b) (j : Nat) : (b.push false).get j = b.get j := by
  rw [h.push_false.get_eq_raw, raw_push_false, h.get_eq_raw]

theorem push_true (b : Bitmap) : b.push true = (b.push false).set b.length := rfl

theorem Sound.push (h : Sound b) (bit : Bool) : Sound (b.push bit) := by
  cases bit with
  | false => exact h.push_false
  | true => exact push_true b ▸ h.push_false.set (by simp)

theorem Sound.get_push (h : Sound b) (bit : Bool) (j : Nat) :
    (b.push bit).get j = (b.get j || (bit && decide (j = b.length))) := by
  cases bit with
  | false => simp [h.get_push_false]
  | true =>
    rw [push_true, h.push_false.get_set (by simp), h.get_push_false]
    simp

/-- A sound bitmap holds nothing besides its bits. -/
theorem Sound.ext {c : Bitmap} (hb : Sound b) (hc : Sound c) (hlength : b.length = c.length)
    (hget : ∀ i, b.get i = c.get i) : b = c := by
  have hwords : b.words = c.words := by
    refine List.ext_getElem (by rw [hb.words_length, hc.words_length, hlength]) ?_
    intro n hn hn'
    apply UInt64.toBitVec_inj.mp
    apply BitVec.eq_of_getLsbD_eq
    intro i hi
    have hbit := hget (64 * n + i)
    have hword : (64 * n + i) / 64 = n := by omega
    have hplace : (64 * n + i) % 64 = i := by omega
    rw [hb.get_eq_raw, hc.get_eq_raw, raw, raw, hword, hplace] at hbit
    simpa only [List.getD_eq_getElem?_getD, List.getElem?_eq_getElem hn,
      List.getElem?_eq_getElem hn', Option.getD_some] using hbit
  obtain ⟨words, length⟩ := b
  obtain ⟨words', length'⟩ := c
  cases hwords
  cases hlength
  rfl

/-- The ones of a run of words are the set positions among the first `64 * words` ones. -/
theorem sum_onesIn (words : List UInt64) :
    words.foldr (fun w n => onesIn w + n) 0 =
      (List.range (64 * words.length)).countP fun i =>
        (words.getD (i / 64) 0).toBitVec.getLsbD (i % 64) := by
  induction words with
  | nil => rfl
  | cons w ws ih =>
    have hl : 64 * (w :: ws).length = 64 + 64 * ws.length := by simp; omega
    have hfirst : onesIn w = (List.range 64).countP fun i =>
        ((w :: ws).getD (i / 64) 0).toBitVec.getLsbD (i % 64) := by
      apply List.countP_congr
      intro i hi
      have hi := List.mem_range.mp hi
      simp [Nat.div_eq_of_lt hi, Nat.mod_eq_of_lt hi]
    rw [hl, List.range_add, List.countP_append, List.countP_map, ← hfirst, List.foldr_cons, ih]
    congr 1
    apply List.countP_congr
    intro i _
    have hd : (64 + i) / 64 = i / 64 + 1 := by omega
    have hm : (64 + i) % 64 = i % 64 := by omega
    simp [hd, hm]

theorem Sound.countOnes_eq (h : Sound b) :
    b.countOnes = (List.range b.length).countP b.get := by
  have hlen : 64 * b.words.length = b.length + (64 * b.words.length - b.length) := by
    rw [h.words_length]
    omega
  have hrest : (List.range (64 * b.words.length - b.length)).countP
      ((fun i => b.raw i) ∘ (b.length + ·)) = 0 := by
    apply List.countP_eq_zero.mpr
    intro i _
    simp [h.raw_eq_false (b.length + i) (by omega)]
  have hraw : b.countOnes = (List.range (64 * b.words.length)).countP b.raw := sum_onesIn b.words
  rw [hraw, hlen, List.range_add, List.countP_append, List.countP_map, hrest, Nat.add_zero]
  exact List.countP_congr fun i _ => by rw [h.get_eq_raw]

end ExactNeighbors.Bitmap
