import Mathlib
import ExactNeighbors.Text.Blank

/-! # Spellings of a word

A word may stand between blanks and have its ASCII letters in either case. Trimming and lowering
undo both, since no letter is a blank.
-/
namespace ExactNeighbors

/-- The same characters, each ASCII letter in either case. -/
def Recased (word spelled : List Char) : Prop :=
  List.Forall₂ (fun c d => d = c ∨ d = c.toLower ∨ d = c.toUpper) word spelled

variable {word spelled before after : List Char} {c d : Char}

theorem Recased.refl (word : List Char) : Recased word word :=
  List.forall₂_same.mpr fun _ _ => Or.inl rfl

theorem toLower_recased (h : d = c ∨ d = c.toLower ∨ d = c.toUpper) : d.toLower = c.toLower := by
  rcases h with rfl | rfl | rfl <;> simp

theorem Recased.map_toLower (h : Recased word spelled) :
    spelled.map Char.toLower = word.map Char.toLower := by
  induction h with
  | nil => rfl
  | cons hc _ ih => rw [List.map_cons, List.map_cons, toLower_recased hc, ih]

/-- No letter is a blank. -/
theorem not_blank_of_isAlpha (h : c.isAlpha = true) : isBlank c = false := by
  have hletter : 65 ≤ c.toNat ∧ c.toNat ≤ 90 ∨ 97 ≤ c.toNat ∧ c.toNat ≤ 122 := by
    simp [Char.isAlpha, Char.isUpper, Char.isLower, UInt32.le_iff_toNat_le] at h
    exact h
  rw [Bool.eq_false_iff]
  intro hblank
  simp only [isBlank, Bool.or_eq_true, Bool.and_eq_true, decide_eq_true_eq] at hblank
  omega

theorem not_blank_of_isDigit (h : c.isDigit = true) : isBlank c = false := by
  have hdigit : 48 ≤ c.toNat ∧ c.toNat ≤ 57 := by
    simpa [Char.isDigit, UInt32.le_iff_toNat_le] using h
  rw [Bool.eq_false_iff]
  intro hblank
  simp only [isBlank, Bool.or_eq_true, Bool.and_eq_true, decide_eq_true_eq] at hblank
  omega

theorem not_blank_of_recased (h : d = c ∨ d = c.toLower ∨ d = c.toUpper)
    (hc : isBlank c = false) : isBlank d = false := by
  by_cases halpha : c.isAlpha = true
  · apply not_blank_of_isAlpha
    rcases h with rfl | rfl | rfl <;> simpa using halpha
  · have hsame : c.toLower = c ∧ c.toUpper = c := by
      have hcase : ¬c.isUpper = true ∧ ¬c.isLower = true := by
        simpa [Char.isAlpha, not_or] using halpha
      exact ⟨Char.toLower_eq_of_not_isUpper hcase.1, Char.toUpper_eq_of_not_isLower hcase.2⟩
    rcases h with rfl | rfl | rfl
    · exact hc
    · rw [hsame.1]
      exact hc
    · rw [hsame.2]
      exact hc

theorem Recased.not_blank (h : Recased word spelled) (hword : ∀ c ∈ word, isBlank c = false) :
    ∀ d ∈ spelled, isBlank d = false := by
  induction h with
  | nil => simp
  | cons hc _ ih =>
    rw [List.forall_mem_cons] at hword ⊢
    exact ⟨not_blank_of_recased hc hword.1, ih hword.2⟩

theorem dropWhile_blanks_append (hbefore : ∀ c ∈ before, isBlank c = true) (hne : word ≠ [])
    (hword : ∀ c ∈ word, isBlank c = false) (rest : List Char) :
    (before ++ (word ++ rest)).dropWhile isBlank = word ++ rest := by
  obtain ⟨c, cs, rfl⟩ := List.exists_cons_of_ne_nil hne
  rw [List.dropWhile_append_of_pos hbefore, List.cons_append, List.dropWhile_cons_of_neg]
  simp [hword c List.mem_cons_self]

/-- Trimming leaves a word without blanks. -/
theorem trimBlanks_append (hbefore : ∀ c ∈ before, isBlank c = true)
    (hafter : ∀ c ∈ after, isBlank c = true) (hne : word ≠ [])
    (hword : ∀ c ∈ word, isBlank c = false) : trimBlanks (before ++ word ++ after) = word := by
  have hafter' : ∀ c ∈ after.reverse, isBlank c = true := by simpa using hafter
  have hword' : ∀ c ∈ word.reverse, isBlank c = false := by simpa using hword
  have hback := dropWhile_blanks_append hafter' (List.reverse_ne_nil_iff.mpr hne) hword' []
  rw [List.append_nil] at hback
  rw [trimBlanks, List.append_assoc, dropWhile_blanks_append hbefore hne hword, List.reverse_append,
    hback, List.reverse_reverse]

end ExactNeighbors
