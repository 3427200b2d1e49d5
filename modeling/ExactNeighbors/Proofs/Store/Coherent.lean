import Mathlib.Data.List.Sort
import Std.Data.TreeMap.Lemmas
import ExactNeighbors.Store.Write
import ExactNeighbors.Proofs.Bitmap
import ExactNeighbors.Proofs.Rows

/-! # Coherent stores

The codes, the tombstones, the free slots, both label maps and the two counters are kept apart and
updated one by one. A store is coherent when they tell the same story. The inverse of the label map
is exact, over dead slots too: this is what makes the invariant inductive, since an insertion that
reuses a slot finds the label to retire in that slot.
-/
namespace ExactNeighbors.Store

variable {α : Type} {s : Store α}

def codeOf (s : Store α) (slot : Nat) : List α := Rows.rowAt s.codec.codeLength slot s.codes

structure Coherent (s : Store α) : Prop where
  dimension_pos : 0 < s.dimension
  codeLength_pos : 0 < s.codec.codeLength
  codes_length : s.codes.length = s.physical * s.codec.codeLength
  tombstones_sound : s.tombstones.Sound
  tombstones_length : s.tombstones.length = s.physical
  free_sorted : s.free.members.Pairwise (· < ·)
  mem_free_iff : ∀ slot, slot ∈ s.free.members ↔ s.isDeleted slot = true
  pending_eq : s.pending = s.free.size
  slotOf?_iff : ∀ label slot, s.slotOf? label = some slot ↔ s.labelOf? slot = some label
  label_lt : ∀ slot label, s.labelOf? slot = some label → label < s.nextLabel
  physical_le : s.physical ≤ s.nextLabel

theorem labelOf?_eq_none_iff {slot : Nat} : s.labelOf? slot = none ↔ s.physical ≤ slot := by
  simp [labelOf?, physical]

theorem exists_labelOf? {slot : Nat} (h : slot < s.physical) :
    ∃ label, s.labelOf? slot = some label := ⟨_, List.getElem?_eq_getElem h⟩

/-- Nothing is stored, and nothing was: labels start from zero. -/
theorem coherent_of_empty {memory : Memory} {codec : Codec α} {metric : Metric}
    (hd : 0 < codec.dimension) (hc : 0 < codec.codeLength) :
    Coherent ({ memory, codec, metric } : Store α) where
  dimension_pos := hd
  codeLength_pos := hc
  codes_length := by simp [physical]
  tombstones_sound := Bitmap.sound_empty
  tombstones_length := rfl
  free_sorted := List.Pairwise.nil
  mem_free_iff slot := by simp [isDeleted, Bitmap.get, Bitmap.empty, IdSet.empty]
  pending_eq := rfl
  slotOf?_iff label slot := by simp [slotOf?, labelOf?]
  label_lt slot label h := by simp [labelOf?] at h
  physical_le := Nat.zero_le _

section New

variable {memory : Memory} {codec : Codec α} {metric : Metric}

theorem new_eq (memory : Memory) (metric : Metric) (hd : 0 < codec.dimension)
    (hc : 0 < codec.codeLength) :
    Store.new memory codec metric = .ok { memory, codec, metric } := by
  rw [Store.new, if_neg (by omega)]

theorem eq_of_new (h : Store.new memory codec metric = .ok s) :
    s = { memory, codec, metric } ∧ 0 < codec.dimension ∧ 0 < codec.codeLength := by
  unfold Store.new at h
  split at h
  · cases h
  · cases h
    exact ⟨rfl, by omega, by omega⟩

theorem coherent_of_new (h : Store.new memory codec metric = .ok s) : Coherent s := by
  obtain ⟨rfl, hd, hc⟩ := eq_of_new h
  exact coherent_of_empty hd hc

end New

namespace Coherent

variable {slot label : Nat}

theorem reset (h : Coherent s) : Coherent s.reset :=
  coherent_of_empty h.dimension_pos h.codeLength_pos

theorem lt_physical_of_deleted (h : Coherent s) (hd : s.isDeleted slot = true) :
    slot < s.physical := h.tombstones_length ▸ Bitmap.lt_length_of_get hd

theorem lt_physical_of_slotOf? (h : Coherent s) (hs : s.slotOf? label = some slot) :
    slot < s.physical := by
  have hl := (h.slotOf?_iff label slot).mp hs
  rcases Nat.lt_or_ge slot s.physical with hlt | hge
  · exact hlt
  · rw [labelOf?_eq_none_iff.mpr hge] at hl
    cases hl

theorem label_lt_of_slotOf? (h : Coherent s) (hs : s.slotOf? label = some slot) :
    label < s.nextLabel := h.label_lt slot label ((h.slotOf?_iff label slot).mp hs)

/-- No slot has two labels that resolve to it. -/
theorem label_unique (h : Coherent s) {label' : Nat} (hs : s.slotOf? label = some slot)
    (hs' : s.slotOf? label' = some slot) : label = label' := by
  have hl := (h.slotOf?_iff label slot).mp hs
  rw [(h.slotOf?_iff label' slot).mp hs'] at hl
  exact (Option.some.inj hl).symm

theorem codeRow_end_le (h : Coherent s) (hs : slot < s.physical) :
    slot * s.codec.codeLength + s.codec.codeLength ≤ s.codes.length := by
  rw [h.codes_length]
  exact Rows.end_le _ hs

/-- The free slots are the dead ones, least first. -/
theorem free_eq (h : Coherent s) : s.free.members = (List.range s.physical).filter s.isDeleted := by
  apply h.free_sorted.eq_of_mem_iff (List.pairwise_lt_range.filter _)
  intro slot
  rw [h.mem_free_iff, List.mem_filter, List.mem_range]
  exact ⟨fun hd => ⟨h.lt_physical_of_deleted hd, hd⟩, fun hd => hd.2⟩

theorem countOnes_eq (h : Coherent s) : s.tombstones.countOnes = s.pending := by
  rw [h.tombstones_sound.countOnes_eq, h.tombstones_length, h.pending_eq, IdSet.size, h.free_eq,
    List.countP_eq_length_filter]
  rfl

theorem pending_le (h : Coherent s) : s.pending ≤ s.physical := by
  rw [h.pending_eq, IdSet.size, h.free_eq]
  exact (List.length_filter_le _ _).trans_eq List.length_range

/-- The tombstones, the free slots and their number follow from which slots are dead. -/
theorem ext {t : Store α} (hs : Coherent s) (ht : Coherent t) (hmemory : s.memory = t.memory)
    (hcodec : s.codec = t.codec) (hmetric : s.metric = t.metric) (hcodes : s.codes = t.codes)
    (hlabels : s.labels = t.labels) (hslots : s.slots = t.slots)
    (hnext : s.nextLabel = t.nextLabel)
    (hdead : ∀ slot, s.isDeleted slot = t.isDeleted slot) : s = t := by
  have hphysical : s.physical = t.physical := congrArg List.length hlabels
  have htombstones : s.tombstones = t.tombstones := by
    refine hs.tombstones_sound.ext ht.tombstones_sound ?_ hdead
    rw [hs.tombstones_length, ht.tombstones_length, hphysical]
  have hmembers : s.free.members = t.free.members := by
    rw [hs.free_eq, ht.free_eq, hphysical]
    exact List.filter_congr fun slot _ => hdead slot
  have hfree : s.free = t.free := congrArg IdSet.mk hmembers
  have hpending : s.pending = t.pending := by rw [hs.pending_eq, ht.pending_eq, hfree]
  obtain ⟨⟩ := s
  obtain ⟨⟩ := t
  simp_all

end Coherent
end ExactNeighbors.Store
