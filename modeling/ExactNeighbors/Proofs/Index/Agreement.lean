import ExactNeighbors.Proofs.Index.Hits
import ExactNeighbors.Proofs.Index.Subset

/-! # Hits and single scores

The score of a hit was computed among other candidates. A computer, a given label, a given slot and
the vector read back give the single score of the slot. The two are equal as numbers: they differ
at most in the sign of a zero, and with squared distances not even there.
-/
namespace ExactNeighbors.Index

variable {ix : Index} {selector : Option Selector} {q : List Score} {found : List Hit} {hit : Hit}
variable {slot : Nat}

theorem reconstruct_of_slotOf? (h : ix.Coherent) {label : Nat}
    (hs : ix.store.slotOf? label = some slot) :
    ix.store.reconstruct label = .ok (ix.store.codeOf slot) := by
  rw [Store.reconstruct_eq hs, h.fits.reconstructSlot_eq h.store h.codec_eq
    (h.store.lt_physical_of_slotOf? hs)]

/-- The label and the slot of a hit, a computer for the metric, whatever it was used for before, and
the vector that the label holds all give one score. It equals the score of the hit. -/
theorem scores_agree (h : ix.Reachable) (hm : ix.metric.isPrimary = true)
    (hf : ix.Returns selector q found) (hhit : hit ∈ found) :
    ∃ slot vector, ix.store.slotOf? hit.label = some slot ∧
      ix.store.reconstruct hit.label = .ok vector ∧
      let score := ix.metric.distance q (vector.map Single.value)
      ix.scoreLabelSubset q 1 [some hit.label] = .ok [score] ∧
      ix.scoreSlotSubset q 1 [some slot] = .ok [score] ∧
      (∀ c : Computer, c.adapter = (Computer.ofStore ix.store).adapter →
        (c.run (do Computer.setQuery ix.store q; Computer.distanceTo ix.store slot)).1 =
          .ok score) ∧
      (score == hit.distance) = true ∧ (ix.metric = .l2 → score = hit.distance) := by
  obtain ⟨hq, -⟩ := hf.eq_hits h.coherent
  obtain ⟨slot, hreports⟩ := hf.exists_reports h.coherent hhit
  have hslot := hreports.lt_physical
  have hs := hreports.slotOf?_eq h.coherent
  have hone := scoreSlotSubset_one h.coherent hm hq hslot
  have hnan := hreports.isNaN_eq
  refine ⟨slot, ix.store.codeOf slot, hs, reconstruct_of_slotOf? h.coherent hs, ?_, hone, ?_, ?_, ?_⟩
  · rw [scoreLabelSubset_one hs, hone]
    rfl
  · intro c hc
    have hkernel : c.adapter.kernel = ix.metric.distance := by
      rw [hc]
      exact Adapter.kernel_ofMetric ix.metric
    rw [Computer.run_setQuery_distanceTo h.coherent.store hq hslot, hkernel]
    rfl
  · rw [hreports.distance_eq] at hnan ⊢
    exact distance_beq_scoreOf h.coherent hq hslot hnan
  · intro hl2
    rw [hreports.distance_eq]
    refine ((scoreOf_eq_distance h.coherent hq hslot).mpr ?_).symm
    rw [hl2]
    simp

/-- The vector that reuses the first slot is scored in a lane, where its zero comes out positive. -/
theorem scores_agree_zeros :
    let one : Single := ⟨0x3f800000⟩
    let minusZero : Single := ⟨0x80000000⟩
    let q := [one.value]
    ∃ ix₀, Index.new .host 1 .innerProduct = .ok ix₀ ∧
      let ix := ix₀.run [.add [one, one, one, minusZero, one], .delete [0], .add [minusZero]]
      let hit : Hit := ⟨5, Score.zero⟩
      (ix.Reachable ∧ ix.metric.isPrimary = true ∧
        ∃ found, ix.Returns none q found ∧ hit ∈ found) ∧
      ix.scoreLabelSubset q 1 [some 5] = .ok [Score.negZero] ∧
      ix.scoreSlotSubset q 1 [some 0] = .ok [Score.negZero] ∧
      (Score.negZero == hit.distance) = true := by
  intro one minusZero q
  have hnew : Index.new .host 1 .innerProduct =
      .ok { store := { memory := .host, codec := .flat 1, metric := .innerProduct } } := rfl
  refine ⟨_, hnew, ?_⟩
  intro ix hit
  have hr : ix.Reachable := (Reachable.new hnew).run _
  have hm : ix.metric.isPrimary = true := by decide +kernel
  have hsearch : ix.search q 5 none = .ok [[⟨1, one.value⟩, ⟨2, one.value⟩, ⟨4, one.value⟩,
      ⟨5, Score.zero⟩, ⟨3, Score.zero⟩]] := eq_ok_of_toOption (by decide +kernel)
  have hrow : (Rows.split ix.dimension q)[0]? = some q := by decide +kernel
  have hf := Returns.nearest hsearch hrow rfl
  have hhit : hit ∈ [⟨1, one.value⟩, ⟨2, one.value⟩, ⟨4, one.value⟩, hit, ⟨3, Score.zero⟩] := by simp
  obtain ⟨slot, vector, hs, hv, hlabel, hslot, -, hequal, -⟩ := scores_agree hr hm hf hhit
  have hzero : ix.store.slotOf? hit.label = some 0 := by decide +kernel
  have hvector : ix.store.reconstruct hit.label = .ok [minusZero] :=
    eq_ok_of_toOption (by decide +kernel)
  cases hs.symm.trans hzero
  cases hv.symm.trans hvector
  have hscore : ix.metric.distance q ([minusZero].map Single.value) = Score.negZero := by
    decide +kernel
  rw [hscore] at hlabel hslot hequal
  exact ⟨⟨hr, hm, _, hf, hhit⟩, hlabel, hslot, hequal⟩

end ExactNeighbors.Index
