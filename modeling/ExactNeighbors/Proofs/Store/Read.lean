import ExactNeighbors.Store.Read
import ExactNeighbors.Proofs.Store.Coherent

/-! # Reading slots

In a coherent store every slot has a whole code, so that reading a range fails only when it leaves
the slots, and reading by label only when the label does not resolve.
-/
namespace ExactNeighbors.Store

variable {α : Type} {s : Store α} {slot label : Nat}

theorem Coherent.codesRange_eq (h : Coherent s) {start count : Nat}
    (hle : start + count ≤ s.physical) : s.codesRange start count =
      .ok ((s.codes.drop (start * s.codec.codeLength)).take (count * s.codec.codeLength)) := by
  unfold codesRange
  by_cases hcount : count = 0
  · rw [if_pos hcount, hcount, Nat.zero_mul]
    rfl
  · have hend : (start + count) * s.codec.codeLength ≤ s.codes.length := by
      rw [h.codes_length]
      exact Nat.mul_le_mul_right _ hle
    have hwidth : (start + count) * s.codec.codeLength - start * s.codec.codeLength =
        count * s.codec.codeLength := by rw [← Nat.sub_mul, Nat.add_sub_cancel_left]
    have hstart : start * s.codec.codeLength ≤ (start + count) * s.codec.codeLength :=
      Nat.mul_le_mul_right _ (Nat.le_add_right start count)
    rw [if_neg hcount, if_pos hle]
    dsimp only
    rw [Rows.slice?, if_pos ⟨hstart, hend⟩, hwidth]

theorem codesRange_eq_error {start count : Nat} (hcount : count ≠ 0)
    (hlt : s.physical < start + count) :
    s.codesRange start count = .error (.outOfBounds start count s.physical) := by
  rw [codesRange, if_neg hcount, if_neg (by omega)]

theorem Coherent.codesRange_all (h : Coherent s) : s.codesRange 0 s.physical = .ok s.codes := by
  rw [h.codesRange_eq (Nat.zero_add _).le, Nat.zero_mul, ← h.codes_length, List.drop_zero,
    List.take_length]

theorem Coherent.code_eq (h : Coherent s) (hs : slot < s.physical) :
    s.code slot = .ok (s.codeOf slot) := by
  rw [code, h.codesRange_eq hs, Nat.one_mul]
  rfl

theorem Coherent.length_codeOf (h : Coherent s) (hs : slot < s.physical) :
    (s.codeOf slot).length = s.codec.codeLength := Rows.length_rowAt (h.codeRow_end_le hs)

theorem Coherent.codeBytes_eq (h : Coherent s) (hs : slot < s.physical) :
    s.codeBytes slot = .ok (s.codec.bytes (s.codeOf slot)) := by
  rw [codeBytes, h.code_eq hs]
  rfl

theorem decodeAll_one {codec : Codec α} {code : List α} (hpos : 0 < codec.codeLength)
    (hcode : code.length = codec.codeLength) (hroom : 4 * codec.dimension ≤ Word.longestBuffer) :
    decodeAll codec 1 code = .ok (codec.decode code) := by
  rw [decodeAll, Nat.one_mul, if_pos hroom, Rows.split_self hpos hcode, List.flatMap_singleton]

theorem Coherent.reconstructSlot_eq_decodeAll (h : Coherent s) (hs : slot < s.physical) :
    s.reconstructSlot slot = decodeAll s.codec 1 (s.codeOf slot) := by
  have hcode := h.code_eq hs
  rw [code] at hcode
  rw [reconstructSlot, reconstructRange, hcode]
  rfl

theorem Coherent.reconstructSlot_eq (h : Coherent s)
    (hroom : 4 * s.dimension ≤ Word.longestBuffer) (hs : slot < s.physical) :
    s.reconstructSlot slot = .ok (s.codec.decode (s.codeOf slot)) := by
  rw [h.reconstructSlot_eq_decodeAll hs, decodeAll_one h.codeLength_pos (h.length_codeOf hs) hroom]

/-- A vector that is read is the decoded code of a slot that there is. -/
theorem Coherent.eq_decode_of_reconstructSlot (h : Coherent s) {v : List Single}
    (hv : s.reconstructSlot slot = .ok v) :
    slot < s.physical ∧ v = s.codec.decode (s.codeOf slot) := by
  rcases Nat.lt_or_ge slot s.physical with hs | hge
  · refine ⟨hs, ?_⟩
    rw [h.reconstructSlot_eq_decodeAll hs, decodeAll] at hv
    split at hv
    · rw [Rows.split_self h.codeLength_pos (h.length_codeOf hs), List.flatMap_singleton] at hv
      exact (Except.ok.inj hv).symm
    · cases hv
  · rw [reconstructSlot, reconstructRange,
      codesRange_eq_error Nat.one_ne_zero (Nat.lt_succ_of_le hge)] at hv
    cases hv

theorem reconstruct_eq (hs : s.slotOf? label = some slot) :
    s.reconstruct label = s.reconstructSlot slot := by
  rw [reconstruct, resolve, hs]
  rfl

end ExactNeighbors.Store
