import ExactNeighbors.Number.Word
import ExactNeighbors.Proofs.Metric.Text
import ExactNeighbors.Settings.Document
import ExactNeighbors.Settings.Load

/-! # Settings read back from their document

A settings record is refused by validation for its metric exactly when the metric's own text is
refused by the reader of metrics. Hence a written record can be read again exactly when its metric
is in range, and of a record that was read only the dimension is left to be refused.
-/
namespace ExactNeighbors

namespace Metric

variable {m : Metric} {text : String}

/-- Validation accepts the metric in every record with a positive dimension. -/
def Accepted (m : Metric) : Prop :=
  ∀ s : Settings, s.metric = m → 0 < s.dimension → s.validate = .ok ()

theorem accepted_iff : m.Accepted ↔ m.isValid = true := by
  constructor
  · intro h
    exact Settings.isValid_of_validate (h { metric := m } rfl (Nat.succ_pos 127))
  · rintro h s rfl hd
    exact Settings.validate_eq_ok hd h

theorem ofText_spelling_eq_ok_iff {before spelled after : List Char}
    (hbefore : ∀ c ∈ before, isBlank c = true) (hafter : ∀ c ∈ after, isBlank c = true)
    (hspelled : Recased m.text.toList spelled) (m' : Metric) :
    ofText (String.ofList (before ++ spelled ++ after)) = .ok m' ↔ m' = m ∧ m.isValid = true := by
  have hdimension : 0 < ({ metric := m } : Settings).dimension := Nat.succ_pos 127
  rw [ofText_spelling hdimension hbefore hafter hspelled]
  constructor
  · intro h
    cases hvalidate : ({ metric := m } : Settings).validate with
    | error e =>
      rw [hvalidate] at h
      cases h
    | ok u =>
      rw [hvalidate] at h
      cases h
      have hm := Settings.isValid_of_validate hvalidate
      exact ⟨rfl, hm⟩
  · rintro ⟨rfl, hm⟩
    rw [Settings.validate_eq_ok hdimension hm]
    rfl

theorem ofText_text_eq_ok_iff (m m' : Metric) :
    ofText m.text = .ok m' ↔ m' = m ∧ m.isValid = true := by
  have hnil : ∀ c ∈ ([] : List Char), isBlank c = true := List.forall_mem_nil _
  have h := ofText_spelling_eq_ok_iff hnil hnil (Recased.refl m.text.toList) m'
  rwa [List.nil_append, List.append_nil, String.ofList_toList] at h

theorem isValid_of_toOption (h : (ofText text).toOption = some m) : m.isValid = true := by
  cases htext : ofText text with
  | error e =>
    rw [htext] at h
    cases h
  | ok m' =>
    rw [htext] at h
    cases h
    exact isValid_of_ofText htext

end Metric

namespace Settings

variable {s : Settings} {j : Json} {m : Metric}

theorem metricOfJson?_text (m : Metric) :
    metricOfJson? (.text m.text) = if m.isValid then some m else none := by
  have hread := m.ofText_text_eq_ok_iff
  change (Metric.ofText m.text).toOption = _
  cases htext : Metric.ofText m.text with
  | ok m' =>
    obtain ⟨rfl, hm⟩ := (hread m').mp htext
    rw [if_pos hm]
    rfl
  | error e =>
    rw [if_neg]
    · rfl
    · intro hm
      rw [(hread m).mpr ⟨rfl, hm⟩] at htext
      cases htext

theorem isValid_of_metricOfJson? (h : metricOfJson? j = some m) : m.isValid = true := by
  obtain ⟨text, -, hm⟩ := Option.bind_eq_some_iff.mp h
  exact Metric.isValid_of_toOption hm

theorem ofJson?_toJson (hdimension : s.dimension < Word.size)
    (hcapacity : s.initialCapacity < Word.size) :
    ofJson? s.toJson = if s.metric.isValid then some s else none := by
  have hsize : ∀ n : Nat, n < Word.size → (Json.nat n).asSize? = some n := by
    intro n hn
    have hlt : (n : Int) < 0x10000000000000000 := by exact_mod_cast hn
    simp [Json.nat, Json.asSize?, hlt]
  have hfields : ofJson? s.toJson = ofFields? (some (.nat s.dimension)) (some (.text s.metric.text))
      (some (.bool s.excludesTombstones)) (some (.nat s.initialCapacity))
      (some (.text s.logLevel)) := rfl
  rw [hfields]
  unfold ofFields?
  simp only [hsize _ hdimension, hsize _ hcapacity, metricOfJson?_text, Json.asBool?, Json.asText?]
  cases s.metric.isValid <;> rfl

/-- A record that is read has a metric in range: it was read from a text, or it is built in. -/
theorem isValid_of_ofFields?
    {dimension metric excludesTombstones initialCapacity logLevel : Option Json}
    (h : ofFields? dimension metric excludesTombstones initialCapacity logLevel = some s) :
    s.metric.isValid = true := by
  unfold ofFields? at h
  simp only [Option.bind_eq_bind, Option.bind_eq_some_iff] at h
  obtain ⟨_, -, m, hm, _, -, _, -, _, -, hs⟩ := h
  cases hs
  cases metric with
  | none =>
    cases hm
    rfl
  | some j => exact isValid_of_metricOfJson? hm

theorem isValid_of_ofJson? (h : ofJson? j = some s) : s.metric.isValid = true := by
  unfold ofJson? at h
  split at h
  · exact isValid_of_ofFields? h
  · split at h
    · cases h
    · exact isValid_of_ofFields? h
  · cases h

theorem isValid_of_ofTable? {Value : Type} {engine : Engine Value} {table : Layer Value}
    (h : ofTable? engine table = some s) : s.metric.isValid = true := by
  unfold ofTable? at h
  simp only [Option.bind_eq_bind, Option.bind_eq_some_iff] at h
  obtain ⟨_, -, m, hm, _, -, _, -, _, -, hs⟩ := h
  cases hs
  split at hm
  · obtain ⟨text, -, hm⟩ := Option.bind_eq_some_iff.mp hm
    exact Metric.isValid_of_toOption hm
  · cases hm
    rfl

/-- A metric's text, in any case and between blanks, is read exactly when validation accepts the
metric, and then gives the metric; whatever text is read gives a metric that validation accepts and
whose own text gives it again. So a written record is read exactly when its metric is accepted, and
then as it was, and validation refuses a record that was read for nothing but its dimension. -/
theorem read_back :
    (∀ (m : Metric) (before spelled after : List Char), (∀ c ∈ before, isBlank c = true) →
      (∀ c ∈ after, isBlank c = true) → Recased m.text.toList spelled →
      let text := String.ofList (before ++ spelled ++ after)
      ((∃ m', Metric.ofText text = .ok m') ↔ m.Accepted) ∧
        ∀ m', Metric.ofText text = .ok m' → m' = m) ∧
    (∀ text m, Metric.ofText text = .ok m → m.Accepted ∧ Metric.ofText m.text = .ok m) ∧
    (∀ s : Settings, s.dimension < Word.size → s.initialCapacity < Word.size →
      ((∃ t, ofJson? s.toJson = some t) ↔ s.metric.Accepted) ∧
        ∀ t, ofJson? s.toJson = some t → t = s) ∧
    ∀ s : Settings, (∃ j, ofJson? j = some s) ∨
        (∃ (Value : Type) (engine : Engine Value) (table : Layer Value),
          ofTable? engine table = some s) →
      s.validate = .ok () ∨ s.dimension = 0 ∧ s.validate = .error .zeroDimension := by
  refine ⟨fun m before spelled after hbefore hafter hspelled => ?_, fun text m h => ?_,
    fun s hdimension hcapacity => ?_, fun s h => ?_⟩
  · have hread := Metric.ofText_spelling_eq_ok_iff hbefore hafter hspelled
    simp only [hread, Metric.accepted_iff]
    exact ⟨by simp, fun m' h => h.1⟩
  · have hm := Metric.isValid_of_ofText h
    exact ⟨Metric.accepted_iff.mpr hm, (m.ofText_text_eq_ok_iff m).mpr ⟨rfl, hm⟩⟩
  · rw [ofJson?_toJson hdimension hcapacity, Metric.accepted_iff]
    cases s.metric.isValid <;> simp
  · have hm : s.metric.isValid = true := by
      rcases h with ⟨j, hj⟩ | ⟨Value, engine, table, htable⟩
      · exact isValid_of_ofJson? hj
      · exact isValid_of_ofTable? htable
    rw [validate_of_isValid hm]
    by_cases hd : s.dimension = 0
    · exact Or.inr ⟨hd, if_pos hd⟩
    · exact Or.inl (if_neg hd)

/-- An exponent in mixed case between blanks, the second name of a metric, a record with an exponent
that is no number, and a record without a dimension. -/
theorem read_back_spelled :
    let m := Metric.lp (Float32.ofBits 0x40200000)
    let lost : Settings := { metric := .lp Score.nan }
    let empty : Settings := { dimension := 0 }
    (isBlank '\u3000' = true ∧ isBlank '\n' = true ∧ Recased m.text.toList "Lp:2.5".toList) ∧
      Metric.ofText (String.ofList (['\u3000'] ++ "Lp:2.5".toList ++ ['\n'])) = .ok m ∧
      (Metric.ofText "INNER_Product" = .ok .innerProduct ∧ Metric.innerProduct.Accepted) ∧
      (lost.dimension < Word.size ∧ lost.initialCapacity < Word.size ∧ ofJson? lost.toJson = none) ∧
      (ofJson? (.object [("dimension", .int 0)]) = some empty ∧
        empty.validate = .error .zeroDimension) := by
  intro m lost empty
  obtain ⟨hspelled, hread, hwritten, hdimension⟩ := read_back
  have hbefore : isBlank '\u3000' = true := rfl
  have hafter : isBlank '\n' = true := rfl
  have hrecased : Recased m.text.toList "Lp:2.5".toList := by
    have htext : m.text.toList = ['l', 'p', ':', '2', '.', '5'] := by decide +kernel
    rw [htext]
    exact .cons (Or.inr (Or.inr rfl)) (Recased.refl ['p', ':', '2', '.', '5'])
  obtain ⟨hparses, honly⟩ := hspelled m ['\u3000'] _ ['\n'] (by simpa using hbefore)
    (by simpa using hafter) hrecased
  obtain ⟨m', hm'⟩ := hparses.mpr (Metric.accepted_iff.mpr rfl)
  have hproduct : Metric.ofText "INNER_Product" = .ok .innerProduct := rfl
  have hsizes : lost.dimension < Word.size ∧ lost.initialCapacity < Word.size := by decide
  have hlost : ¬lost.metric.Accepted := by
    rw [Metric.accepted_iff]
    decide
  have hempty : ofJson? (.object [("dimension", .int 0)]) = some empty := rfl
  have hrefused := hdimension empty (Or.inl ⟨_, hempty⟩)
  refine ⟨⟨hbefore, hafter, hrecased⟩, honly m' hm' ▸ hm', ⟨hproduct, (hread _ _ hproduct).1⟩,
    ⟨hsizes.1, hsizes.2, ?_⟩, hempty, ?_⟩
  · rw [Option.eq_none_iff_forall_ne_some]
    intro t ht
    exact hlost ((hwritten lost hsizes.1 hsizes.2).1.mp ⟨t, ht⟩)
  · rcases hrefused with h | ⟨-, h⟩
    · cases h
    · exact h

end Settings
end ExactNeighbors
