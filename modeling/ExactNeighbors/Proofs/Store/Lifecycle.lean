import ExactNeighbors.Proofs.Store.Moved
import ExactNeighbors.Proofs.Store.Run

/-! # The life of a label

A label is unissued, live, tombstoned or retired, and passes through these phases in this order.
The step lemma says what one call may do to one label; the run lemma follows by induction. The case
that carries the induction is the retired one: a label that does not resolve and is below the next
label stays so, because insertions only hand out labels from the next one on.
-/
namespace ExactNeighbors.Store

variable {α : Type} {s t : Store α} {label slot : Nat} {call : Call} {calls : List Call}

inductive Phase where
  | unissued
  | live
  | tombstoned
  | retired
deriving DecidableEq

def Phase.age : Phase → Nat
  | .unissued => 0
  | .live => 1
  | .tombstoned => 2
  | .retired => 3

def phase (s : Store α) (label : Nat) : Phase :=
  match s.slotOf? label with
  | some slot => if s.isDeleted slot then .tombstoned else .live
  | none => if label < s.nextLabel then .retired else .unissued

/-- The labels that the insertions of a run hand out, one after the other. -/
def issued (s : Store α) : List Call → List Nat
  | [] => []
  | call :: calls => s.issuedBy call ++ (s.after call).issued calls

theorem phase_of_slotOf? (hs : s.slotOf? label = some slot) :
    s.phase label = if s.isDeleted slot then .tombstoned else .live := by
  simp only [phase, hs]

theorem phase_of_none (hs : s.slotOf? label = none) :
    s.phase label = if label < s.nextLabel then .retired else .unissued := by
  simp only [phase, hs]

theorem phase_eq_live_iff : s.phase label = .live ↔ s.Live label := by
  unfold phase Live
  cases s.slotOf? label with
  | none => dsimp only; split <;> simp
  | some slot => cases hd : s.isDeleted slot <;> simp [hd]

theorem phase_eq_tombstoned_iff :
    s.phase label = .tombstoned ↔ ∃ slot, s.slotOf? label = some slot ∧ s.isDeleted slot = true := by
  unfold phase
  cases s.slotOf? label with
  | none => dsimp only; split <;> simp
  | some slot => cases hd : s.isDeleted slot <;> simp [hd]

theorem phase_eq_retired_iff :
    s.phase label = .retired ↔ s.slotOf? label = none ∧ label < s.nextLabel := by
  unfold phase
  cases s.slotOf? label with
  | none => dsimp only; split <;> simp [*]
  | some slot => cases hd : s.isDeleted slot <;> simp [hd]

theorem Coherent.phase_eq_unissued_iff (h : Coherent s) :
    s.phase label = .unissued ↔ s.nextLabel ≤ label := by
  cases hs : s.slotOf? label with
  | none =>
    rw [phase_of_none hs]
    split <;> simp only [reduceCtorEq, true_iff, false_iff] <;> omega
  | some slot =>
    have hlt := h.label_lt_of_slotOf? hs
    rw [phase_of_slotOf? hs]
    split <;> simp only [reduceCtorEq, false_iff] <;> omega

/-- What one call may do to one label: move it on by one phase at most, and only in the way that
belongs to the phase. A label that goes on resolving keeps its slot. -/
structure LabelStep (s : Store α) (call : Call) (label : Nat) : Prop where
  age_le : (s.phase label).age ≤ ((s.after call).phase label).age
  age_le_succ : ((s.after call).phase label).age ≤ (s.phase label).age + 1
  slot_eq : ∀ slot place, s.slotOf? label = some slot →
    (s.after call).slotOf? label = some place → place = slot
  becomes_live_iff : s.phase label ≠ .live ∧ (s.after call).phase label = .live ↔
    label ∈ s.issuedBy call
  becomes_tombstoned_iff : s.phase label ≠ .tombstoned ∧ (s.after call).phase label = .tombstoned ↔
    label ∈ s.deletedBy call
  becomes_retired_iff : s.phase label ≠ .retired ∧ (s.after call).phase label = .retired ↔
    ∃ slot, s.slotOf? label = some slot ∧
      ∃ heir ∈ s.issuedBy call, (s.after call).slotOf? heir = some slot

/-- A label whose phase and slot stay, while the call neither hands it out nor deletes it nor gives
its slot away. -/
theorem labelStep_of_same (hphase : (s.after call).phase label = s.phase label)
    (hslot : (s.after call).slotOf? label = s.slotOf? label) (hi : label ∉ s.issuedBy call)
    (hd : label ∉ s.deletedBy call)
    (hheir : ∀ slot, s.slotOf? label = some slot →
      ∀ heir ∈ s.issuedBy call, (s.after call).slotOf? heir ≠ some slot) :
    LabelStep s call label where
  age_le := by rw [hphase]
  age_le_succ := by rw [hphase]; exact Nat.le_succ _
  slot_eq slot place hs hp := by
    rw [hslot, hs] at hp
    exact (Option.some.inj hp).symm
  becomes_live_iff := by simp [hphase, hi]
  becomes_tombstoned_iff := by simp [hphase, hd]
  becomes_retired_iff := by
    rw [hphase]
    constructor
    · rintro ⟨hne, he⟩
      exact absurd he hne
    · rintro ⟨slot, hs, heir, hm, hp⟩
      exact absurd hp (hheir slot hs heir hm)

theorem Moved.phase_eq (hle : s.nextLabel ≤ t.nextLabel)
    (old : label < s.nextLabel ∨ t.nextLabel ≤ label) (same : t.slotOf? label = s.slotOf? label)
    (same_slot : ∀ slot, s.slotOf? label = some slot → t.isDeleted slot = s.isDeleted slot) :
    t.phase label = s.phase label := by
  cases hs : s.slotOf? label with
  | none =>
    have hiff : label < t.nextLabel ↔ label < s.nextLabel := by omega
    rw [phase_of_none (same.trans hs), phase_of_none hs]
    simp only [hiff]
  | some slot => rw [phase_of_slotOf? (same.trans hs), phase_of_slotOf? hs, same_slot slot hs]

theorem labelStep_of_moved (h : Coherent s) (hc : Coherent (s.after call))
    (hle : s.nextLabel ≤ (s.after call).nextLabel)
    (hi : ∀ label, label ∈ s.issuedBy call ↔
      s.nextLabel ≤ label ∧ label < (s.after call).nextLabel)
    (hd : s.deletedBy call = []) (m : Moved s (s.after call) label) : LabelStep s call label := by
  cases m with
  | issued unused used live =>
    have hs : s.slotOf? label = none := by
      cases hs : s.slotOf? label with
      | none => rfl
      | some slot => exact absurd (h.label_lt_of_slotOf? hs) (by omega)
    have hbefore := h.phase_eq_unissued_iff.mpr unused
    have hafter := phase_eq_live_iff.mpr live
    constructor <;> simp [hbefore, hafter, hs, hd, hi, unused, used, Phase.age]
  | retired slot heir held dead gone unused used holds alive =>
    have hlt := h.label_lt_of_slotOf? held
    have hbefore := phase_eq_tombstoned_iff.mpr ⟨slot, held, dead⟩
    have hafter := phase_eq_retired_iff.mpr ⟨gone, show label < (s.after call).nextLabel by omega⟩
    have hnew : label ∉ s.issuedBy call := by rw [hi]; omega
    constructor
    case becomes_retired_iff =>
      simp only [hbefore, hafter]
      exact ⟨fun _ => ⟨slot, held, heir, (hi heir).mpr ⟨unused, used⟩, holds⟩, fun _ => by simp⟩
    all_goals simp [hbefore, hafter, hnew, gone, hd, Phase.age]
  | kept old same same_slot =>
    have hnew : label ∉ s.issuedBy call := by rw [hi]; omega
    apply labelStep_of_same _ same hnew (by simp [hd])
    · intro slot hs heir hm hp
      exact hnew (hc.label_unique hp (same.trans hs) ▸ hm)
    · exact Moved.phase_eq hle old same fun slot hs => (same_slot slot hs).1

theorem labelStep_of_buried (h : Coherent s) {labels : List Nat} (hd : s.Deletable labels)
    (b : Buried s labels (s.after call)) (hi : s.issuedBy call = [])
    (hdel : s.deletedBy call = labels) : LabelStep s call label := by
  by_cases hl : label ∈ labels
  · obtain ⟨slot, hs, halive⟩ := hd.live label hl
    have hs' := (b.slotOf?_eq label).trans hs
    have hdead := (b.isDeleted_iff slot).mpr (Or.inr ⟨label, hl, hs⟩)
    have hbefore := phase_eq_live_iff.mpr ⟨slot, hs, halive⟩
    have hafter := phase_eq_tombstoned_iff.mpr ⟨slot, hs', hdead⟩
    constructor
    case slot_eq =>
      intro place place' hp hp'
      rw [hs] at hp
      rw [hs'] at hp'
      exact Option.some.inj (hp'.symm.trans hp)
    all_goals simp [hbefore, hafter, hi, hdel, hl, Phase.age]
  · apply labelStep_of_same _ (b.slotOf?_eq label) (by simp [hi]) (hdel ▸ hl) (by simp [hi])
    apply Moved.phase_eq b.nextLabel_eq.ge (by have := b.nextLabel_eq; omega) (b.slotOf?_eq label)
    intro slot hs
    rw [Bool.eq_iff_iff, b.isDeleted_iff, or_iff_left]
    rintro ⟨other, ho, hp⟩
    exact hl (h.label_unique hs hp ▸ ho)

theorem labelStep (h : Coherent s) (hr : call ≠ .reset) (label : Nat) :
    LabelStep s call label := by
  have hc := (h.after call).1
  cases h.effect call with
  | placed x labels t _ _ ht hi hd hlabels hp =>
    have hnext := hp.nextLabel_eq
    rw [Rows.length_split] at hnext
    subst ht
    apply labelStep_of_moved h hc hp.nextLabel_le _ hd (hp.moved h label)
    intro label
    rw [hi, hlabels, hnext, List.mem_range'_1]
  | buried labels pending t _ _ ht hi hd hdel _ hb =>
    exact labelStep_of_buried h hdel (ht ▸ hb) hi hd
  | reset hreset => exact absurd hreset hr
  | idle ht hi hd =>
    exact labelStep_of_same (by rw [ht]) (by rw [ht]) (by simp [hi]) (by simp [hd]) (by simp [hi])

/-- Without a reset, labels are handed out without a gap. -/
theorem range_append_issuedBy (h : Coherent s) (hr : call ≠ .reset) :
    List.range s.nextLabel ++ s.issuedBy call = List.range (s.after call).nextLabel := by
  cases h.effect call with
  | placed x labels t _ _ ht hi _ hlabels hp =>
    rw [hi, ht, hlabels, hp.nextLabel_eq, Rows.length_split, List.range_eq_range',
      List.range_eq_range', ← List.range'_append_1, Nat.zero_add]
  | buried labels pending t _ _ ht hi _ _ _ hb => rw [hi, ht, hb.nextLabel_eq, List.append_nil]
  | reset hreset => exact absurd hreset hr
  | idle ht hi => rw [hi, ht, List.append_nil]

theorem range_append_issued (h : Coherent s) (hr : .reset ∉ calls) :
    List.range s.nextLabel ++ s.issued calls = List.range (s.run calls).nextLabel := by
  induction calls generalizing s with
  | nil => exact List.append_nil _
  | cons call calls ih =>
    obtain ⟨hcall, hcalls⟩ := not_or.mp (mt List.mem_cons.mpr hr)
    rw [issued, ← List.append_assoc, range_append_issuedBy h (Ne.symm hcall),
      ih (h.after call).1 hcalls, run_cons]

theorem age_le_run (h : Coherent s) (hr : .reset ∉ calls) (label : Nat) :
    (s.phase label).age ≤ ((s.run calls).phase label).age := by
  induction calls generalizing s with
  | nil => exact Nat.le_refl _
  | cons call calls ih =>
    obtain ⟨hcall, hcalls⟩ := not_or.mp (mt List.mem_cons.mpr hr)
    have hstep := (labelStep h (Ne.symm hcall) label).age_le
    exact hstep.trans (ih (h.after call).1 hcalls)

theorem age_of_slotOf? (hs : s.slotOf? label = some slot) :
    1 ≤ (s.phase label).age ∧ (s.phase label).age ≤ 2 := by
  rw [phase_of_slotOf? hs]
  split <;> simp [Phase.age]

theorem age_of_none (hs : s.slotOf? label = none) :
    (s.phase label).age = 0 ∨ (s.phase label).age = 3 := by
  rw [phase_of_none hs]
  split <;> simp [Phase.age]

/-- A label that resolves at both ends of a run resolves in between, to the same slot. -/
theorem slotOf?_after (h : Coherent s) {place : Nat} (hr : .reset ∉ call :: calls)
    (hs : s.slotOf? label = some slot)
    (hp : ((s.after call).run calls).slotOf? label = some place) :
    (s.after call).slotOf? label = some slot := by
  obtain ⟨hcall, hcalls⟩ := not_or.mp (mt List.mem_cons.mpr hr)
  have hstep := labelStep h (Ne.symm hcall) label
  cases ht : (s.after call).slotOf? label with
  | some other => rw [hstep.slot_eq slot other hs ht]
  | none =>
    have hbefore := age_of_slotOf? hs
    have hbetween := age_of_none ht
    have hafter := age_of_slotOf? hp
    have hage := hstep.age_le
    have hrun := age_le_run (h.after call).1 hcalls label
    omega

theorem slotOf?_run (h : Coherent s) {place : Nat} (hr : .reset ∉ calls)
    (hs : s.slotOf? label = some slot) (hp : (s.run calls).slotOf? label = some place) :
    place = slot := by
  induction calls generalizing s with
  | nil => exact Option.some.inj (hp.symm.trans hs)
  | cons call calls ih =>
    exact ih (h.after call).1 (fun hm => hr (List.mem_cons_of_mem call hm))
      (slotOf?_after h hr hs hp) hp

theorem retired_run (h : Coherent s) (hr : .reset ∉ calls) (hs : s.phase label = .retired) :
    (s.run calls).slotOf? label = none := by
  have hage := age_le_run h hr label
  rw [hs] at hage
  cases hp : (s.run calls).slotOf? label with
  | none => rfl
  | some place =>
    have hafter := age_of_slotOf? hp
    simp only [Phase.age] at hage hafter
    omega

/-- Over any run without a reset the insertions hand out `0, 1, 2, ...`. Every label passes through
its phases in order, one at a time: it becomes live by the insertion that hands it out, tombstoned
by the deletion that names it and retired by the insertion that gives its slot to another label.
While it resolves, it resolves to one slot. A retired label is gone for good, and a deletion that
stops at a retired or tombstoned label says so. -/
theorem label_lifecycle {memory : Memory} {codec : Codec α} {metric : Metric} {s₀ : Store α}
    (hnew : Store.new memory codec metric = .ok s₀) {calls : List Call} (hr : .reset ∉ calls) :
    s₀.issued calls = List.range (s₀.run calls).nextLabel ∧
    ∀ label,
      ((s₀.run calls).phase label = .unissued ↔ label ∉ s₀.issued calls) ∧
      (∀ before call rest, calls = before ++ call :: rest →
        LabelStep (s₀.run before) call label) ∧
      (∀ before between rest, calls = before ++ between ++ rest →
        let s := s₀.run before
        let t := s.run between
        (s.phase label).age ≤ (t.phase label).age ∧
        (∀ slot place, s.slotOf? label = some slot → t.slotOf? label = some place →
          place = slot) ∧
        (s.phase label = .retired →
          t.slotOf? label = none ∧ ∀ slot, t.labelOf? slot ≠ some label)) ∧
      (∀ earlier later, (s₀.run calls).Deletable earlier →
        let s := s₀.run calls
        (s.phase label = .retired →
          s.markDeleted (earlier ++ label :: later) = .error (.labelNotFound label)) ∧
        (s.phase label = .tombstoned → ∃ slot, s.slotOf? label = some slot ∧
          s.markDeleted (earlier ++ label :: later) = .error (.alreadyDeleted label slot))) := by
  have h₀ := coherent_of_new hnew
  have h := (h₀.run calls).1
  have hissued : s₀.issued calls = List.range (s₀.run calls).nextLabel := by
    have hrange := range_append_issued h₀ hr
    obtain ⟨rfl, -⟩ := eq_of_new hnew
    exact hrange
  refine ⟨hissued, fun label => ⟨?_, ?_, ?_, ?_⟩⟩
  · rw [hissued, List.mem_range, h.phase_eq_unissued_iff, Nat.not_lt]
  · rintro before call rest rfl
    have hcall : call ≠ .reset := by
      rintro rfl
      exact hr (by simp)
    exact labelStep (h₀.run before).1 hcall label
  · rintro before between rest rfl
    have hs := (h₀.run before).1
    have ht := (hs.run between).1
    have hb : .reset ∉ between := fun hm => hr (by simp [hm])
    refine ⟨age_le_run hs hb label, fun slot place hp hp' => slotOf?_run hs hb hp hp', ?_⟩
    intro hretired
    have hnone := retired_run hs hb hretired
    refine ⟨hnone, fun slot hl => ?_⟩
    rw [(ht.slotOf?_iff label slot).mpr hl] at hnone
    cases hnone
  · intro earlier later hd
    constructor
    · intro hretired
      have hnone := (phase_eq_retired_iff.mp hretired).1
      exact markDeleted_eq_error h hd (by rw [refusal?, hnone]) later
    · intro htombstoned
      obtain ⟨slot, hs, hdead⟩ := phase_eq_tombstoned_iff.mp htombstoned
      refine ⟨slot, hs, markDeleted_eq_error h hd ?_ later⟩
      rw [refusal?, hs]
      exact if_pos (Or.inl hdead)

/-- Label 1 is deleted and its slot reused, so that it cannot be deleted after label 0 any more. -/
theorem label_lifecycle_recycled :
    let s₀ : Store Single := { memory := .host, codec := Codec.flat 1, metric := .l2 }
    let calls : List Call := [.add [⟨1⟩, ⟨2⟩], .delete [1], .add [⟨3⟩]]
    Store.new .host (Codec.flat 1) .l2 = .ok s₀ ∧ .reset ∉ calls ∧
      s₀.issued calls = List.range (s₀.run calls).nextLabel ∧
      (s₀.run calls).phase 1 = .retired ∧ (s₀.run calls).Deletable [0] ∧
      (s₀.run calls).markDeleted [0, 1] = .error (.labelNotFound 1) := by
  intro s₀ calls
  have hnew : Store.new .host (Codec.flat 1) .l2 = .ok s₀ := rfl
  have hr : .reset ∉ calls := by decide
  have hphase : (s₀.run calls).phase 1 = .retired := by decide
  have hd : (s₀.run calls).Deletable [0] :=
    ⟨by decide, fun label hl => phase_eq_live_iff.mp (List.mem_singleton.mp hl ▸ by decide)⟩
  obtain ⟨hissued, hlabels⟩ := label_lifecycle hnew hr
  exact ⟨hnew, hr, hissued, hphase, hd, ((hlabels 1).2.2.2 [0] [] hd).1 hphase⟩

end ExactNeighbors.Store
