import Mathlib.Algebra.Order.Ring.Nat
import ExactNeighbors.Proofs.Store.Read
import ExactNeighbors.Proofs.Store.Run
import ExactNeighbors.Proofs.Store.Seats

/-! # What has been granted

A reservation asks for a new slot for every vector. What the store holds afterwards is no more than
what it asked for, since a slot that is reused needs no room. So the memory of a store always holds
its codes and its slots, and the bytes of slots that there are always make a buffer.
-/
namespace ExactNeighbors.Store

variable {α : Type} {s t : Store α}

/-- All that the store holds has been granted. -/
def Fits (s : Store α) : Prop := s.memory.Holds (s.codes.length * s.codec.width) s.physical

theorem fits_of_empty (memory : Memory) (codec : Codec α) (metric : Metric) :
    Fits { memory, codec, metric } :=
  ⟨(Nat.zero_mul codec.width).symm ▸ Nat.zero_le _, Nat.zero_le _⟩

theorem fits_of_new {memory : Memory} {codec : Codec α} {metric : Metric}
    (h : Store.new memory codec metric = .ok s) : Fits s := by
  obtain ⟨rfl, -⟩ := eq_of_new h
  exact fits_of_empty memory codec metric

theorem roomFault?_eq_none_iff {additional : Nat} : s.roomFault? additional = none ↔
    additional * s.codec.codeLength < Word.size ∧
      s.memory.Holds ((s.codes.length + additional * s.codec.codeLength) * s.codec.width)
        (s.physical + additional) := by
  have hlongest := s.memory.codes_le
  have hlabels := s.memory.slots_le
  unfold roomFault?
  dsimp only
  constructor
  · intro h
    split at h
    · cases h
    · split at h
      · cases h
      · rename_i hcodes
        have hslots := (Memory.fault?_eq_none_iff.mp h).2
        exact ⟨by omega, (Memory.fault?_eq_none_iff.mp hcodes).2, by omega⟩
  · rintro ⟨helements, hbytes, hslots⟩
    rw [if_neg (by omega), Memory.fault?_eq_none_iff.mpr ⟨hbytes.trans hlongest, hbytes⟩]
    exact Memory.fault?_eq_none_iff.mpr ⟨by omega, by omega⟩

theorem roomFault?_mono {additional more : Nat} (hle : additional ≤ more)
    (h : s.roomFault? more = none) : s.roomFault? additional = none := by
  rw [roomFault?_eq_none_iff] at h ⊢
  have helements := Nat.mul_le_mul_right s.codec.codeLength hle
  exact ⟨helements.trans_lt h.1, h.2.mono
    (Nat.mul_le_mul_right _ (Nat.add_le_add_left helements _)) (Nat.add_le_add_left hle _)⟩

/-- What an insertion that is not refused has been granted. -/
theorem Fits.granted (hf : Fits s) {x : List Single} (hx : s.addFault? x = none) :
    s.memory.Holds
      ((s.codes.length + x.length / s.dimension * s.codec.codeLength) * s.codec.width)
      (s.physical + x.length / s.dimension) := by
  unfold addFault? at hx
  dsimp only at hx
  split at hx
  · cases hx
  · split at hx
    · cases hx
    · split at hx
      · rename_i hnone
        rw [hnone, Nat.zero_mul]
        exact hf
      · exact (roomFault?_eq_none_iff.mp (Option.map_eq_none_iff.mp hx)).2

theorem Fits.add (h : Coherent s) (hf : Fits s) {x : List Single} {labels : List Nat}
    (hadd : s.add x = .ok (labels, t)) : Fits t := by
  obtain ⟨-, hp⟩ := placedAll_of_add h hadd
  have hgranted := hf.granted (x := x) (by
    cases hx : s.addFault? x with
    | none => rfl
    | some e =>
      rw [add_eq, hx] at hadd
      cases hadd)
  -- A reused slot needs no new elements, so there may be fewer than were granted.
  have hphysical := hp.physical_le h
  have hcodes := (hp.coherent h).codes_length
  rw [Rows.length_split] at hphysical
  rw [h.codes_length, ← Nat.add_mul] at hgranted
  rw [Fits, hp.memory_eq, hcodes, hp.codec_eq]
  exact hgranted.mono (Nat.mul_le_mul_right _ (Nat.mul_le_mul_right _ hphysical)) hphysical

theorem Fits.after (h : Coherent s) (hf : Fits s) (call : Call) : Fits (s.after call) := by
  cases h.effect call with
  | placed x labels t _ hadd ht => exact ht ▸ hf.add h hadd
  | buried labels pending t _ _ ht _ _ _ _ hb =>
    subst ht
    rw [Fits, hb.memory_eq, hb.codec_eq, hb.codes_eq, hb.physical_eq]
    exact hf
  | reset _ ht => exact ht ▸ fits_of_empty s.memory s.codec s.metric
  | idle ht => exact ht.symm ▸ hf

theorem Fits.run (h : Coherent s) (hf : Fits s) (calls : List Call) : Fits (s.run calls) := by
  induction calls generalizing s with
  | nil => exact hf
  | cons call calls ih => exact ih (h.after call).1 (hf.after h call)

/-- The bytes of slots that there are make no longer buffer than there is. -/
theorem Fits.bytes_le (hf : Fits s) (h : Coherent s) {start count : Nat}
    (hle : start + count ≤ s.physical) :
    count * (s.codec.codeLength * s.codec.width) ≤ Word.longestBuffer := by
  refine Nat.le_trans ?_ (Memory.Holds.bytes_le_longest hf)
  rw [h.codes_length, ← Nat.mul_assoc]
  exact Nat.mul_le_mul_right _ (Nat.mul_le_mul_right _ (by omega))

theorem Fits.codes_lt_size (hf : Fits s) (hwidth : 0 < s.codec.width) :
    s.codes.length < Word.size := by
  have hbytes := Memory.Holds.bytes_le_longest hf
  have hle := Nat.le_mul_of_pos_right s.codes.length hwidth
  simp only [Word.longestBuffer, Word.size] at hbytes ⊢
  omega

/-- Raw components need no more room decoded than they have in the store. -/
theorem Fits.vectors_le {s : Store Single} (hf : Fits s) (h : Coherent s)
    (hcodec : s.codec = .flat s.dimension) {start count : Nat}
    (hle : start + count ≤ s.physical) : 4 * (count * s.dimension) ≤ Word.longestBuffer := by
  have hbytes := hf.bytes_le h hle
  rw [hcodec, ← Nat.mul_assoc, Nat.mul_comm] at hbytes
  exact hbytes

theorem Fits.reconstructSlot_eq {s : Store Single} (hf : Fits s) (h : Coherent s)
    (hcodec : s.codec = .flat s.dimension) {slot : Nat} (hs : slot < s.physical) :
    s.reconstructSlot slot = .ok (s.codeOf slot) := by
  have hroom := hf.vectors_le h hcodec (show slot + 1 ≤ s.physical from hs)
  rw [Nat.one_mul] at hroom
  rw [h.reconstructSlot_eq hroom hs, hcodec]
  rfl

end ExactNeighbors.Store
