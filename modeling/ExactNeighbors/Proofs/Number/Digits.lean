import Mathlib
import ExactNeighbors.Number.Numeral
import ExactNeighbors.Number.Shortest

/-! # Decimals as numerals

A decimal written with a point reads as a numeral of the same value: what it has before the point
and behind it are the digits, and the number of those behind it is the exponent.
-/
namespace ExactNeighbors

theorem toLower_of_isDigit {c : Char} (h : c.isDigit = true) : c.toLower = c := by
  apply Char.toLower_eq_of_not_isUpper
  simp only [Char.isDigit, Char.isUpper, Bool.and_eq_true, decide_eq_true_eq, ge_iff_le,
    UInt32.le_iff_toNat_le] at h ⊢
  simp at h ⊢
  omega

namespace Numeral

variable {cs whole fraction : List Char}

theorem decimal?_whole (negative : Bool) (hdigits : ∀ c ∈ cs, c.isDigit = true) (hne : cs ≠ []) :
    decimal? negative cs = some (.finite negative (digitsValue cs) 0) := by
  have htake : cs.takeWhile Char.isDigit = cs := List.takeWhile_eq_self_iff.mpr hdigits
  have hdrop : cs.dropWhile Char.isDigit = [] := List.dropWhile_eq_nil_iff.mpr hdigits
  simp [decimal?, htake, hdrop, hne, exponent?]

theorem decimal?_point (negative : Bool) (hwhole : ∀ c ∈ whole, c.isDigit = true)
    (hfraction : ∀ c ∈ fraction, c.isDigit = true) (hne : whole ≠ []) :
    decimal? negative (whole ++ '.' :: fraction) =
      some (.finite negative (digitsValue (whole ++ fraction)) (-fraction.length)) := by
  have htake : (whole ++ '.' :: fraction).takeWhile Char.isDigit = whole := by
    rw [List.takeWhile_append_of_pos hwhole]
    simp
  have hdrop : (whole ++ '.' :: fraction).dropWhile Char.isDigit = '.' :: fraction := by
    rw [List.dropWhile_append_of_pos hwhole]
    rfl
  have htake' : fraction.takeWhile Char.isDigit = fraction := List.takeWhile_eq_self_iff.mpr hfraction
  have hdrop' : fraction.dropWhile Char.isDigit = [] := List.dropWhile_eq_nil_iff.mpr hfraction
  simp [decimal?, htake, hdrop, htake', hdrop', hne, exponent?]

theorem sign_of_digit {c : Char} (hc : c.isDigit = true) (cs : List Char) :
    sign (c :: cs) = (false, c :: cs) := by
  unfold sign
  split
  · rename_i h
    cases h
    cases hc
  · rename_i h
    cases h
    cases hc
  · rfl

/-- A text that starts with a digit, with or without a minus before it, is no word. -/
theorem ofChars?_signed (negative : Bool) {c : Char} (hc : c.isDigit = true) (cs : List Char) :
    ofChars? (if negative then '-' :: c :: cs else c :: cs) = decimal? negative (c :: cs) := by
  have hsign : sign (if negative then '-' :: c :: cs else c :: cs) = (negative, c :: cs) := by
    cases negative with
    | true => rfl
    | false => exact sign_of_digit hc cs
  have hword : ∀ d : Char, d.isDigit = false → ∀ rest,
      String.ofList ((c :: cs).map Char.toLower) ≠ String.ofList (d :: rest) := by
    intro d hd rest h
    have hlist := congrArg String.toList h
    simp only [String.toList_ofList, List.map_cons, List.cons.injEq, toLower_of_isDigit hc] at hlist
    rw [← hlist.1, hc] at hd
    cases hd
  unfold ofChars?
  rw [hsign]
  dsimp only
  rw [if_neg (hword 'n' rfl ['a', 'n']), if_neg]
  rintro (h | h)
  · exact hword 'i' rfl ['n', 'f'] h
  · exact hword 'i' rfl ['n', 'f', 'i', 'n', 'i', 't', 'y'] h

end Numeral

namespace Decimal

variable {d : Decimal} {c : Char}

theorem isDigit_of_mem_digitText (h : c ∈ d.digitText) : c.isDigit = true :=
  Nat.isDigit_of_mem_toDigits (by decide) (by decide) h

theorem isDigit_of_mem_replicate {n : Nat} (h : c ∈ List.replicate n '0') : c.isDigit = true := by
  rw [List.eq_of_mem_replicate h]
  rfl

theorem digitText_ne_nil (d : Decimal) : d.digitText ≠ [] := Nat.toDigits_ne_nil

theorem digitsValue_digitText (d : Decimal) : Numeral.digitsValue d.digitText = d.digits :=
  Nat.ofDigitChars_ten_toDigits

theorem digitsValue_append_zeros (d : Decimal) (n : Nat) :
    Numeral.digitsValue (d.digitText ++ List.replicate n '0') = d.digits * 10 ^ n := by
  change Nat.ofDigitChars 10 (d.digitText ++ List.replicate n '0') 0 = _
  rw [Nat.ofDigitChars_append, Nat.ofDigitChars_replicate_zero, mul_comm]
  exact congrArg (· * 10 ^ n) d.digitsValue_digitText

theorem digitsValue_zeros_append (d : Decimal) (n : Nat) :
    Numeral.digitsValue (List.replicate n '0' ++ d.digitText) = d.digits := by
  change Nat.ofDigitChars 10 (List.replicate n '0' ++ d.digitText) 0 = _
  rw [Nat.ofDigitChars_append, Nat.ofDigitChars_replicate_zero, mul_zero]
  exact d.digitsValue_digitText

/-- The value of a decimal does not change in writing; its exponent is zero if it was positive. -/
theorem decimal?_positional (negative : Bool) (d : Decimal) :
    Numeral.decimal? negative d.positional =
      some (.finite negative (d.digits * 10 ^ d.exponent.toNat) (min d.exponent 0)) := by
  unfold positional
  dsimp only
  split
  · rename_i h
    rw [Numeral.decimal?_whole, digitsValue_append_zeros, min_eq_right h]
    · exact List.forall_mem_append.mpr
        ⟨fun _ => isDigit_of_mem_digitText, fun _ => isDigit_of_mem_replicate⟩
    · exact List.append_ne_nil_of_left_ne_nil d.digitText_ne_nil _
  · rename_i h
    have hexponent : d.exponent.toNat = 0 := by omega
    rw [hexponent, pow_zero, mul_one, min_eq_left (by omega)]
    split
    · rename_i hplaces
      rw [Numeral.decimal?_point, List.take_append_drop, digitsValue_digitText, List.length_drop]
      · congr 2
        omega
      · intro c hc
        exact isDigit_of_mem_digitText (List.mem_of_mem_take hc)
      · intro c hc
        exact isDigit_of_mem_digitText (List.mem_of_mem_drop hc)
      · intro hnil
        have hlength := congrArg List.length hnil
        rw [List.length_take, List.length_nil] at hlength
        omega
    · rename_i hplaces
      have hfraction : ∀ c ∈ List.replicate ((-d.exponent).toNat - d.digitText.length) '0' ++ d.digitText,
          c.isDigit = true :=
        List.forall_mem_append.mpr
          ⟨fun _ => isDigit_of_mem_replicate, fun _ => isDigit_of_mem_digitText⟩
      have hpoint := Numeral.decimal?_point negative (by simp) hfraction (List.cons_ne_nil '0' [])
      have hvalue := digitsValue_zeros_append d ((-d.exponent).toNat - d.digitText.length + 1)
      rw [List.replicate_succ, List.cons_append] at hvalue
      simp only [List.cons_append, List.nil_append, hvalue, List.length_append,
        List.length_replicate] at hpoint ⊢
      rw [hpoint]
      congr 2
      omega

theorem mem_positional (h : c ∈ d.positional) : c.isDigit = true ∨ c = '.' := by
  have hdigit : ∀ n, c ∈ List.replicate n '0' → c.isDigit = true := by
    intro n hc
    exact isDigit_of_mem_replicate hc
  unfold positional at h
  dsimp only at h
  split at h
  · rcases List.mem_append.mp h with h | h
    · exact Or.inl (isDigit_of_mem_digitText h)
    · exact Or.inl (hdigit _ h)
  · split at h
    · rcases List.mem_append.mp h with h | h
      · exact Or.inl (isDigit_of_mem_digitText (List.mem_of_mem_take h))
      · rcases List.mem_cons.mp h with h | h
        · exact Or.inr h
        · exact Or.inl (isDigit_of_mem_digitText (List.mem_of_mem_drop h))
    · simp only [List.cons_append, List.mem_cons, List.mem_append] at h
      rcases h with rfl | h | h | h
      · exact Or.inl rfl
      · exact Or.inr h
      · exact Or.inl (hdigit _ h)
      · exact Or.inl (isDigit_of_mem_digitText h)

theorem exists_positional_cons (d : Decimal) :
    ∃ c cs, d.positional = c :: cs ∧ c.isDigit = true := by
  have hhead : ∀ {c : Char} {cs : List Char}, d.digitText = c :: cs → c.isDigit = true := by
    intro c cs h
    exact isDigit_of_mem_digitText (h ▸ List.mem_cons_self)
  obtain ⟨c, cs, hcons⟩ := List.exists_cons_of_ne_nil d.digitText_ne_nil
  unfold positional
  dsimp only
  split
  · exact ⟨c, _, by rw [hcons, List.cons_append], hhead hcons⟩
  · split
    · rename_i hplaces
      have hlength : 0 < d.digitText.length - (-d.exponent).toNat := by omega
      obtain ⟨n, hn⟩ := Nat.exists_eq_succ_of_ne_zero hlength.ne'
      exact ⟨c, _, by rw [hn, hcons, List.take_succ_cons, List.cons_append], hhead hcons⟩
    · exact ⟨'0', _, rfl, rfl⟩

end Decimal
end ExactNeighbors
