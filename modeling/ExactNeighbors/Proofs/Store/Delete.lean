import Mathlib.Data.List.Induction
import ExactNeighbors.Proofs.Store.Coherent

/-! # What a deletion does

A deletion is accepted when its labels differ and each is live, that is, resolves to a slot that is
not dead. Then exactly the slots of these labels become dead and free. Otherwise the first label
that cannot be deleted together with those before it decides the error.
-/
namespace ExactNeighbors.Store

variable {α : Type} {s t u : Store α} {slot label : Nat}
variable {slots labels named first second : List Nat}

def Live (s : Store α) (label : Nat) : Prop :=
  ∃ slot, s.slotOf? label = some slot ∧ s.isDeleted slot = false

structure Deletable (s : Store α) (labels : List Nat) : Prop where
  nodup : labels.Nodup
  live : ∀ label ∈ labels, s.Live label

instance (s : Store α) (label : Nat) : Decidable (s.Live label) :=
  decidable_of_iff ((s.slotOf? label).any fun slot => !s.isDeleted slot)
    (by simp [Live, Option.any_eq_true])

instance (s : Store α) (labels : List Nat) : Decidable (s.Deletable labels) :=
  decidable_of_iff (labels.Nodup ∧ ∀ label ∈ labels, s.Live label)
    ⟨fun h => ⟨h.1, h.2⟩, fun h => ⟨h.nodup, h.live⟩⟩

/-- Why a label cannot be deleted together with earlier ones, if it cannot. -/
def refusal? (s : Store α) (earlier : List Nat) (label : Nat) : Option IndexError :=
  match s.slotOf? label with
  | none => some (.labelNotFound label)
  | some slot =>
    if s.isDeleted slot ∨ label ∈ earlier then some (.alreadyDeleted label slot) else none

/-- The step from `s` to `t` makes exactly the slots of the labels dead. -/
structure Buried (s : Store α) (labels : List Nat) (t : Store α) : Prop where
  memory_eq : t.memory = s.memory
  codec_eq : t.codec = s.codec
  metric_eq : t.metric = s.metric
  codes_eq : t.codes = s.codes
  labels_eq : t.labels = s.labels
  slots_eq : t.slots = s.slots
  nextLabel_eq : t.nextLabel = s.nextLabel
  pending_eq : t.pending = s.pending + labels.length
  isDeleted_iff : ∀ slot, t.isDeleted slot = true ↔
    s.isDeleted slot = true ∨ ∃ label ∈ labels, s.slotOf? label = some slot

theorem deletable_cons (s : Store α) (named : List Nat) (label : Nat) (labels : List Nat) :
    s.deletable named (label :: labels) = match s.slotOf? label with
      | none => .error (.labelNotFound label)
      | some slot =>
        if s.isDeleted slot ∨ slot ∈ named then .error (.alreadyDeleted label slot)
        else (s.deletable (slot :: named) labels).map (slot :: ·) := by
  cases hs : s.slotOf? label with
  | none => simp [deletable, resolve, hs, bind, Except.bind]
  | some slot =>
    by_cases hd : s.isDeleted slot = true ∨ slot ∈ named
    · simp only [deletable, resolve, hs, bind, Except.bind, if_pos hd]
      rfl
    · simp only [deletable, resolve, hs, bind, Except.bind, if_neg hd]
      cases s.deletable (slot :: named) labels <;> rfl

/-- Labels that differ and are live pass the check, and their slots come out in order. -/
theorem deletable_eq_ok (h : Coherent s) (hd : s.Deletable labels)
    (hnamed : ∀ label ∈ labels, ∀ slot, s.slotOf? label = some slot → slot ∉ named) :
    s.deletable named labels = .ok (labels.filterMap s.slotOf?) := by
  induction labels generalizing named with
  | nil => rfl
  | cons label labels ih =>
    obtain ⟨slot, hs, halive⟩ := hd.live label List.mem_cons_self
    obtain ⟨hnew, hnodup⟩ := List.nodup_cons.mp hd.nodup
    have hfresh := hnamed label List.mem_cons_self slot hs
    have hd' : s.Deletable labels :=
      ⟨hnodup, fun other ho => hd.live other (List.mem_cons_of_mem label ho)⟩
    have hrest : s.deletable (slot :: named) labels = _ := ih hd' (by
      intro other ho place hp hmem
      rcases List.mem_cons.mp hmem with rfl | hmem
      · exact hnew (h.label_unique hs hp ▸ ho)
      · exact hnamed other (List.mem_cons_of_mem label ho) place hp hmem)
    rw [deletable_cons, hs]
    simp only [halive, hfresh, or_self, Bool.false_eq_true, ↓reduceIte, hrest,
      List.filterMap_cons, hs]
    rfl

theorem deletable_append {first second : List Nat} (hfirst : s.deletable named first = .ok slots) :
    s.deletable named (first ++ second) =
      (s.deletable (slots.reverse ++ named) second).map (slots ++ ·) := by
  induction first generalizing named slots with
  | nil =>
    cases hfirst
    cases hs : s.deletable named second <;> simp [hs, Except.map]
  | cons label first ih =>
    rw [deletable_cons] at hfirst
    rw [List.cons_append, deletable_cons]
    cases hs : s.slotOf? label with
    | none => simp [hs] at hfirst
    | some slot =>
      simp only [hs] at hfirst ⊢
      split at hfirst
      · cases hfirst
      · rename_i hd
        rw [if_neg hd]
        cases hrest : s.deletable (slot :: named) first with
        | error e => rw [hrest] at hfirst; cases hfirst
        | ok others =>
          rw [hrest] at hfirst
          cases hfirst
          rw [ih hrest]
          cases hsecond : s.deletable (others.reverse ++ slot :: named) second <;>
            simp [hsecond, Except.map]

theorem mem_filterMap_slotOf?_iff (h : Coherent s) (hs : s.slotOf? label = some slot) :
    slot ∈ labels.filterMap s.slotOf? ↔ label ∈ labels := by
  rw [List.mem_filterMap]
  constructor
  · rintro ⟨other, ho, hslot⟩
    exact h.label_unique hs hslot ▸ ho
  · intro hl
    exact ⟨label, hl, hs⟩

/-- The first label that cannot be deleted stops the whole call. -/
theorem markDeleted_eq_error (h : Coherent s) (hd : s.Deletable labels) {e : IndexError}
    (he : s.refusal? labels label = some e) (rest : List Nat) :
    s.markDeleted (labels ++ label :: rest) = .error e := by
  have hfirst : s.deletable [] labels = _ := deletable_eq_ok h hd (by simp)
  have hstop : s.deletable ((labels.filterMap s.slotOf?).reverse ++ []) (label :: rest) =
      .error e := by
    rw [deletable_cons, List.append_nil]
    unfold refusal? at he
    cases hs : s.slotOf? label with
    | none =>
      rw [hs] at he
      cases he
      rfl
    | some slot =>
      simp only [hs, List.mem_reverse, mem_filterMap_slotOf?_iff h hs] at he ⊢
      split at he
      · cases he
        rw [if_pos ‹_›]
      · cases he
  rw [markDeleted, deletable_append hfirst, hstop]
  rfl

theorem refusal?_eq_none_iff :
    s.refusal? labels label = none ↔ s.Live label ∧ label ∉ labels := by
  unfold refusal? Live
  cases hs : s.slotOf? label with
  | none => simp
  | some slot => simp

theorem Deletable.concat (hd : s.Deletable labels) (hlive : s.Live label) (hnew : label ∉ labels) :
    s.Deletable (labels ++ [label]) where
  nodup := by
    have hdisjoint : ∀ x ∈ labels, ∀ y ∈ [label], x ≠ y := by
      intro x hx y hy
      rw [List.mem_singleton.mp hy]
      exact fun e => hnew (e ▸ hx)
    exact List.nodup_append.mpr ⟨hd.nodup, List.nodup_singleton label, hdisjoint⟩
  live := by
    intro other ho
    rcases List.mem_append.mp ho with ho | ho
    · exact hd.live other ho
    · exact List.mem_singleton.mp ho ▸ hlive

theorem Deletable.of_concat (hd : s.Deletable (labels ++ [label])) :
    s.Deletable labels ∧ s.Live label ∧ label ∉ labels := by
  obtain ⟨hnodup, -, hdisjoint⟩ := List.nodup_append.mp hd.nodup
  refine ⟨⟨hnodup, fun other ho => hd.live other (List.mem_append_left _ ho)⟩,
    hd.live label (List.mem_append_right _ List.mem_cons_self), ?_⟩
  intro hm
  exact hdisjoint label hm label List.mem_cons_self rfl

/-- Either all labels can be deleted together, or one of them is the first that cannot. -/
theorem deletable_or_refused (s : Store α) (labels : List Nat) :
    s.Deletable labels ∨ ∃ earlier label rest e, labels = earlier ++ label :: rest ∧
      s.Deletable earlier ∧ s.refusal? earlier label = some e := by
  induction labels using List.reverseRecOn with
  | nil => exact Or.inl ⟨List.nodup_nil, by simp⟩
  | append_singleton labels label ih =>
    rcases ih with hd | ⟨earlier, refused, rest, e, rfl, hd, he⟩
    · cases he : s.refusal? labels label with
      | some e => exact Or.inr ⟨labels, label, [], e, rfl, hd, he⟩
      | none =>
        obtain ⟨hlive, hnew⟩ := refusal?_eq_none_iff.mp he
        exact Or.inl (hd.concat hlive hnew)
    · exact Or.inr ⟨earlier, refused, rest ++ [label], e, by simp, hd, he⟩

theorem isDeleted_bury (h : Coherent s) (hlt : slot < s.physical) (other : Nat) :
    (s.bury slot).isDeleted other = (s.isDeleted other || decide (other = slot)) :=
  h.tombstones_sound.get_set (h.tombstones_length.symm ▸ hlt) other

theorem Coherent.bury (h : Coherent s) (hlt : slot < s.physical)
    (halive : s.isDeleted slot = false) : Coherent (s.bury slot) where
  dimension_pos := h.dimension_pos
  codeLength_pos := h.codeLength_pos
  codes_length := h.codes_length
  tombstones_sound := h.tombstones_sound.set (h.tombstones_length.symm ▸ hlt)
  tombstones_length := h.tombstones_length
  free_sorted := IdSet.pairwise_insertInto h.free_sorted
  mem_free_iff other := by
    rw [isDeleted_bury h hlt, Bool.or_eq_true, decide_eq_true_eq, ← h.mem_free_iff, or_comm]
    exact IdSet.mem_insertInto
  pending_eq := by
    have hnew : slot ∉ s.free.members := by simp [h.mem_free_iff, halive]
    exact (congrArg (· + 1) h.pending_eq).trans (IdSet.length_insertInto hnew).symm
  slotOf?_iff := h.slotOf?_iff
  label_lt := h.label_lt
  physical_le := h.physical_le

/-- Burying slots that differ and are not dead, one after the other. -/
theorem foldl_bury (h : Coherent s) (hnodup : slots.Nodup)
    (hslots : ∀ slot ∈ slots, slot < s.physical ∧ s.isDeleted slot = false) :
    Coherent (slots.foldl bury s) ∧ (slots.foldl bury s).pending = s.pending + slots.length ∧
      ∀ other, (slots.foldl bury s).isDeleted other = true ↔
        s.isDeleted other = true ∨ other ∈ slots := by
  induction slots generalizing s with
  | nil => exact ⟨h, rfl, by simp⟩
  | cons slot slots ih =>
    obtain ⟨hnew, hnodup⟩ := List.nodup_cons.mp hnodup
    obtain ⟨hlt, halive⟩ := hslots slot List.mem_cons_self
    have hdead := isDeleted_bury h hlt
    obtain ⟨hc, hp, hd⟩ := ih (h.bury hlt halive) hnodup (by
      intro other ho
      obtain ⟨holt, hoalive⟩ := hslots other (List.mem_cons_of_mem slot ho)
      have hne : other ≠ slot := fun e => hnew (e ▸ ho)
      exact ⟨holt, by simp [hdead, hoalive, hne]⟩)
    refine ⟨hc, ?_, ?_⟩
    · rw [List.foldl_cons, hp, List.length_cons]
      simp only [Store.bury]
      omega
    · intro other
      rw [List.foldl_cons, hd, hdead, Bool.or_eq_true, decide_eq_true_eq, List.mem_cons, or_assoc]

/-- Only the tombstones, the free slots and their number are written. -/
theorem foldl_bury_frame (s : Store α) (slots : List Nat) :
    slots.foldl bury s = { s with
      tombstones := (slots.foldl bury s).tombstones
      free := (slots.foldl bury s).free
      pending := (slots.foldl bury s).pending } := by
  induction slots generalizing s with
  | nil => rfl
  | cons slot slots ih => exact ih (s.bury slot)

theorem filterMap_slotOf? (hlive : ∀ label ∈ labels, s.Live label) :
    labels.map s.slotOf? = (labels.filterMap s.slotOf?).map some := by
  induction labels with
  | nil => rfl
  | cons label labels ih =>
    obtain ⟨slot, hs, -⟩ := hlive label List.mem_cons_self
    have hrest := ih fun other ho => hlive other (List.mem_cons_of_mem label ho)
    rw [List.map_cons, List.filterMap_cons_some hs, List.map_cons, hrest, hs]

theorem nodup_filterMap_slotOf? (h : Coherent s) (hnodup : labels.Nodup) :
    (labels.filterMap s.slotOf?).Nodup := by
  apply hnodup.filterMap
  intro label other slot hs ho
  exact h.label_unique hs ho

theorem length_filterMap_slotOf? (hlive : ∀ label ∈ labels, s.Live label) :
    (labels.filterMap s.slotOf?).length = labels.length := by
  have hmap := congrArg List.length (filterMap_slotOf? hlive)
  rw [List.length_map, List.length_map] at hmap
  exact hmap.symm

theorem alive_of_mem_filterMap (h : Coherent s) (hlive : ∀ label ∈ labels, s.Live label) :
    ∀ slot ∈ labels.filterMap s.slotOf?, slot < s.physical ∧ s.isDeleted slot = false := by
  intro slot hm
  obtain ⟨label, hl, hs⟩ := List.mem_filterMap.mp hm
  obtain ⟨place, hp, halive⟩ := hlive label hl
  cases hs.symm.trans hp
  exact ⟨h.lt_physical_of_slotOf? hs, halive⟩

theorem markDeleted_eq_ok (h : Coherent s) (hd : s.Deletable labels) :
    ∃ t, s.markDeleted labels = .ok (s.pending + labels.length, t) ∧ Coherent t ∧
      Buried s labels t := by
  have hcheck : s.deletable [] labels = _ := deletable_eq_ok h hd (by simp)
  have hlen := length_filterMap_slotOf? hd.live
  have hslots := alive_of_mem_filterMap h hd.live
  obtain ⟨hc, hp, hdead⟩ := foldl_bury h (nodup_filterMap_slotOf? h hd.nodup) hslots
  have hframe := foldl_bury_frame s (labels.filterMap s.slotOf?)
  have hroom : (labels.filterMap s.slotOf?).all (· < s.tombstones.length) = true := by
    rw [List.all_eq_true]
    intro slot hm
    simpa [h.tombstones_length] using (hslots slot hm).1
  refine ⟨(labels.filterMap s.slotOf?).foldl Store.bury s, ?_, hc, ?_⟩
  · rw [← hlen, ← hp]
    simp only [markDeleted, hcheck, hroom, bind, Except.bind]
    rfl
  · constructor
    case memory_eq => rw [hframe]
    case codec_eq => rw [hframe]
    case metric_eq => rw [hframe]
    case codes_eq => rw [hframe]
    case labels_eq => rw [hframe]
    case slots_eq => rw [hframe]
    case nextLabel_eq => rw [hframe]
    case pending_eq => rw [hp, hlen]
    case isDeleted_iff =>
      intro slot
      rw [hdead, List.mem_filterMap]

/-- A deletion that succeeds was of labels that could be deleted together. -/
theorem buried_of_markDeleted (h : Coherent s) {pending : Nat}
    (hmark : s.markDeleted labels = .ok (pending, t)) :
    s.Deletable labels ∧ Coherent t ∧ Buried s labels t := by
  rcases s.deletable_or_refused labels with hd | ⟨earlier, label, rest, e, rfl, hd, he⟩
  · obtain ⟨u, hu, hc, hb⟩ := markDeleted_eq_ok h hd
    cases hu.symm.trans hmark
    exact ⟨hd, hc, hb⟩
  · rw [markDeleted_eq_error h hd he] at hmark
    cases hmark

theorem count_of_markDeleted (h : Coherent s) {count : Nat}
    (hmark : s.markDeleted labels = .ok (count, t)) : count = s.pending + labels.length := by
  obtain ⟨u, hu, -⟩ := markDeleted_eq_ok h (buried_of_markDeleted h hmark).1
  cases hu.symm.trans hmark
  rfl

namespace Buried

theorem slotOf?_eq (b : Buried s labels t) (label : Nat) : t.slotOf? label = s.slotOf? label := by
  rw [slotOf?, b.slots_eq, slotOf?]

theorem labelOf?_eq (b : Buried s labels t) (slot : Nat) : t.labelOf? slot = s.labelOf? slot := by
  rw [labelOf?, b.labels_eq, labelOf?]

theorem physical_eq (b : Buried s labels t) : t.physical = s.physical :=
  congrArg List.length b.labels_eq

theorem codeOf_eq (b : Buried s labels t) (slot : Nat) : t.codeOf slot = s.codeOf slot := by
  rw [codeOf, b.codes_eq, b.codec_eq, codeOf]

/-- A label named before in the same call and one deleted by a call before are refused alike. -/
theorem refusal?_eq (h : Coherent s) (b : Buried s first t) (earlier : List Nat) (label : Nat) :
    t.refusal? earlier label = s.refusal? (first ++ earlier) label := by
  rw [refusal?, refusal?, b.slotOf?_eq]
  cases hs : s.slotOf? label with
  | none => rfl
  | some slot =>
    have hnamed : (∃ other ∈ first, s.slotOf? other = some slot) ↔ label ∈ first := by
      rw [← List.mem_filterMap, mem_filterMap_slotOf?_iff h hs]
    simp only [b.isDeleted_iff, hnamed, List.mem_append, or_assoc]

theorem live_iff (h : Coherent s) (b : Buried s first t) :
    t.Live label ↔ s.Live label ∧ label ∉ first := by
  have hrefusal := b.refusal?_eq h [] label
  rw [List.append_nil] at hrefusal
  rw [← refusal?_eq_none_iff, ← hrefusal, refusal?_eq_none_iff, and_iff_left List.not_mem_nil]

theorem deletable_append (h : Coherent s) (b : Buried s first t) (hfirst : s.Deletable first)
    (hsecond : t.Deletable second) : s.Deletable (first ++ second) := by
  have hlive : ∀ label ∈ second, s.Live label ∧ label ∉ first :=
    fun label hl => (b.live_iff h).mp (hsecond.live label hl)
  refine ⟨List.nodup_append.mpr ⟨hfirst.nodup, hsecond.nodup, ?_⟩, ?_⟩
  · rintro label hl other ho rfl
    exact (hlive label ho).2 hl
  · intro label hl
    rcases List.mem_append.mp hl with hl | hl
    · exact hfirst.live label hl
    · exact (hlive label hl).1

theorem trans (b : Buried s first t) (b' : Buried t second u) : Buried s (first ++ second) u where
  memory_eq := b'.memory_eq.trans b.memory_eq
  codec_eq := b'.codec_eq.trans b.codec_eq
  metric_eq := b'.metric_eq.trans b.metric_eq
  codes_eq := b'.codes_eq.trans b.codes_eq
  labels_eq := b'.labels_eq.trans b.labels_eq
  slots_eq := b'.slots_eq.trans b.slots_eq
  nextLabel_eq := b'.nextLabel_eq.trans b.nextLabel_eq
  pending_eq := by rw [b'.pending_eq, b.pending_eq, List.length_append, Nat.add_assoc]
  isDeleted_iff slot := by
    rw [b'.isDeleted_iff, b.isDeleted_iff, or_assoc]
    simp only [b.slotOf?_eq, List.mem_append, or_and_right, exists_or]

/-- What a deletion leaves does not depend on the order of the labels. -/
theorem unique (ht : Coherent t) (hu : Coherent u) (b : Buried s first t) (b' : Buried s second u)
    (hsame : ∀ label, label ∈ first ↔ label ∈ second) : t = u := by
  apply ht.ext hu (b.memory_eq.trans b'.memory_eq.symm) (b.codec_eq.trans b'.codec_eq.symm)
    (b.metric_eq.trans b'.metric_eq.symm) (b.codes_eq.trans b'.codes_eq.symm)
    (b.labels_eq.trans b'.labels_eq.symm) (b.slots_eq.trans b'.slots_eq.symm)
    (b.nextLabel_eq.trans b'.nextLabel_eq.symm)
  intro slot
  rw [Bool.eq_iff_iff, b.isDeleted_iff, b'.isDeleted_iff]
  simp only [hsame]

end Buried
end ExactNeighbors.Store
