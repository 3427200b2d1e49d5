import ExactNeighbors.Settings.Basic
import ExactNeighbors.Proofs.Number.ReadBack
import ExactNeighbors.Proofs.Text.Spelling

/-! # Metrics read back from their text

The text of a metric is one word without blanks. Read in any case and between blanks it gives the
metric, or refuses the exponent of a metric whose exponent is out of range. What is read at all is
in range.
-/
namespace ExactNeighbors

namespace NumberText

def isPlainChar (c : Char) : Bool := c.isDigit || c ∈ ['-', '.', 'i', 'n', 'f']

variable {x : Score} {c : Char}

theorem isPlainChar_of_mem_signed {negative : Bool} {cs : List Char}
    (hcs : ∀ c ∈ cs, isPlainChar c = true) (hc : c ∈ (signed negative cs).toList) :
    isPlainChar c = true := by
  rw [signed, String.toList_ofList] at hc
  cases negative with
  | true =>
    rcases List.mem_cons.mp hc with rfl | hc
    · rfl
    · exact hcs c hc
  | false => exact hcs c hc

theorem isPlainChar_of_mem (hx : x.isNaN = false) (hc : c ∈ (ofScore x).toList) :
    isPlainChar c = true := by
  rw [ofScore, Score.ofFloat32_eq] at hc
  cases hu : Score.unpacked x with
  | notANumber => exact absurd hu (Score.unpacked_ne_notANumber hx)
  | infinity sign =>
    rw [hu, Score.binary, plain] at hc
    exact isPlainChar_of_mem_signed (by simp [isPlainChar]) hc
  | zero sign =>
    rw [hu, Score.binary, plain, if_pos rfl] at hc
    exact isPlainChar_of_mem_signed (by simp [isPlainChar]) hc
  | finite sign m e hm =>
    rw [hu, Score.binary, plain, if_neg hm.ne'] at hc
    refine isPlainChar_of_mem_signed (fun c hc => ?_) hc
    rcases Decimal.mem_positional hc with hc | rfl
    · simp [isPlainChar, hc]
    · rfl

theorem ofScore_of_isNaN (hx : x.isNaN = true) : ofScore x = "NaN" := by
  have hnan : Score.nan.isNaN = true := by decide
  rw [Score.eq_of_isNaN hx hnan]
  rfl

theorem toLower_of_isPlainChar (h : isPlainChar c = true) : c.toLower = c := by
  simp only [isPlainChar, Bool.or_eq_true, decide_eq_true_eq] at h
  rcases h with h | h
  · exact toLower_of_isDigit h
  · fin_cases h <;> rfl

theorem not_blank_of_isPlainChar (h : isPlainChar c = true) : isBlank c = false := by
  simp only [isPlainChar, Bool.or_eq_true, decide_eq_true_eq] at h
  rcases h with h | h
  · exact not_blank_of_isDigit h
  · fin_cases h <;> rfl

/-- Also in lower case a score reads back. -/
theorem score?_toLower (x : Score) :
    Numeral.score? (String.ofList ((ofScore x).toList.map Char.toLower)) = some x := by
  cases hx : x.isNaN with
  | true =>
    have hnan : Score.nan.isNaN = true := by decide
    rw [ofScore_of_isNaN hx, Score.eq_of_isNaN hx hnan]
    rfl
  | false =>
    have hlower : (ofScore x).toList.map Char.toLower = (ofScore x).toList :=
      (List.map_congr_left fun c hc => toLower_of_isPlainChar (isPlainChar_of_mem hx hc)).trans
        (List.map_id' _)
    rw [hlower, String.ofList_toList, Score.score?_ofScore]

end NumberText

namespace Metric

variable {before spelled after : List Char} {m : Metric} {p : Score} {s : String}

theorem toList_text_lp (p : Score) :
    (text (.lp p)).toList = 'l' :: 'p' :: ':' :: (NumberText.ofScore p).toList := by
  simp [text]

theorem text_ne_nil (m : Metric) : m.text.toList ≠ [] := by
  cases m with
  | lp p => simp [toList_text_lp]
  | _ => simp [text, name]

theorem not_blank_of_mem_text (m : Metric) : ∀ c ∈ m.text.toList, isBlank c = false := by
  have hnumber : ∀ p, ∀ c ∈ (NumberText.ofScore p).toList, isBlank c = false := by
    intro p c hc
    cases hp : p.isNaN with
    | true =>
      rw [NumberText.ofScore_of_isNaN hp] at hc
      revert c
      simp [isBlank]
    | false => exact NumberText.not_blank_of_isPlainChar (NumberText.isPlainChar_of_mem hp hc)
  cases m with
  | lp p =>
    rw [toList_text_lp]
    simp only [List.forall_mem_cons]
    exact ⟨by decide, by decide, by decide, hnumber p⟩
  | _ => simp [text, name, isBlank]

/-- Reading a spelling of a metric's text gives what validating the metric gives. -/
theorem ofText_spelling {settings : Settings} (hd : 0 < settings.dimension)
    (hbefore : ∀ c ∈ before, isBlank c = true) (hafter : ∀ c ∈ after, isBlank c = true)
    (hspelled : Recased settings.metric.text.toList spelled) :
    ofText (String.ofList (before ++ spelled ++ after)) =
      settings.validate.map fun _ => settings.metric := by
  have hne : spelled ≠ [] := by
    intro hnil
    rw [hnil, Recased, List.forall₂_nil_right_iff] at hspelled
    exact text_ne_nil _ hspelled
  have hblank := hspelled.not_blank (not_blank_of_mem_text settings.metric)
  unfold ofText Settings.validate
  rw [String.toList_ofList, trimBlanks_append hbefore hafter hne hblank, hspelled.map_toLower,
    if_neg hd.ne']
  cases settings.metric with
  | lp p =>
    rw [toList_text_lp]
    change ofExponent (String.ofList ((NumberText.ofScore p).toList.map Char.toLower)) = _
    rw [ofExponent, NumberText.score?_toLower]
    dsimp only
    split <;> rfl
  | _ => rfl

/-- Only metrics in range are read. -/
theorem isValid_of_ofText (h : ofText s = .ok m) : m.isValid = true := by
  unfold ofText at h
  split at h
  · unfold ofExponent at h
    split at h
    · cases h
    · split at h
      · cases h
        assumption
      · cases h
  · split at h
    · rename_i hnamed
      cases h
      unfold named? at hnamed
      split at hnamed <;> cases hnamed <;> rfl
    · cases h

end Metric

namespace Settings

variable {settings : Settings}

theorem validate_of_isValid (hm : settings.metric.isValid = true) :
    settings.validate = if settings.dimension = 0 then .error .zeroDimension else .ok () := by
  unfold validate
  split
  · rfl
  · split
    · rename_i p hp
      rw [hp] at hm
      exact if_pos hm
    · rfl

theorem validate_eq_ok (hd : 0 < settings.dimension) (hm : settings.metric.isValid = true) :
    settings.validate = .ok () := by
  rw [validate_of_isValid hm, if_neg hd.ne']

theorem isValid_of_validate (h : settings.validate = .ok ()) : settings.metric.isValid = true := by
  unfold validate at h
  split at h
  · cases h
  · split at h
    · rename_i p hp
      rw [hp]
      split at h
      · assumption
      · cases h
    · rename_i hlp
      cases hm : settings.metric with
      | lp p => exact absurd hm (hlp p)
      | _ => rfl

end Settings
end ExactNeighbors
