import ExactNeighbors.Proofs.Store.Read
import ExactNeighbors.Proofs.Store.Room

/-! # Packing a range

The packer of a store has one code per block and changes nothing, so the blocks of a range are the
bytes of its codes.
-/
namespace ExactNeighbors

variable {α : Type}

namespace Codec

variable (codec : Codec α) (codes : List α)

theorem length_bytes : (codec.bytes codes).length = codes.length * codec.width := by
  induction codes with
  | nil => simp [bytes]
  | cons a codes ih =>
    have hcons : codec.bytes (a :: codes) = codec.elementBytes a ++ codec.bytes codes := rfl
    rw [hcons, List.length_append, codec.length_elementBytes, ih, List.length_cons, Nat.succ_mul,
      Nat.add_comm]

theorem bytes_append (other : List α) :
    codec.bytes (codes ++ other) = codec.bytes codes ++ codec.bytes other := List.flatMap_append

theorem bytes_flatMap {γ : Type} (xs : List γ) (f : γ → List α) :
    codec.bytes (xs.flatMap f) = xs.flatMap fun x => codec.bytes (f x) := List.flatMap_assoc

theorem bytes_take_append_drop (i : Nat) :
    codec.bytes (codes.take i) ++ codec.bytes (codes.drop i) = codec.bytes codes := by
  rw [← bytes_append, List.take_append_drop]

theorem length_bytes_take {i : Nat} (hi : i ≤ codes.length) :
    (codec.bytes (codes.take i)).length = i * codec.width := by
  rw [length_bytes, List.length_take_of_le hi]

theorem drop_bytes {i : Nat} (hi : i ≤ codes.length) :
    (codec.bytes codes).drop (i * codec.width) = codec.bytes (codes.drop i) := by
  rw [← codec.bytes_take_append_drop codes i]
  exact List.drop_left' (codec.length_bytes_take codes hi)

theorem take_bytes {i : Nat} (hi : i ≤ codes.length) :
    (codec.bytes codes).take (i * codec.width) = codec.bytes (codes.take i) := by
  rw [← codec.bytes_take_append_drop codes i]
  exact List.take_left' (codec.length_bytes_take codes hi)

end Codec

namespace Store

variable {s : Store α} {start count : Nat}

theorem packBlock_flat {code : Bytes} (hpos : 0 < code.length) (hlt : code.length < Word.size) :
    packBlock (Packer.flat code.length) code = .ok code := by
  have hproduct : Word.product? code.length 1 = some code.length :=
    Word.product?_eq_some_iff.mpr ⟨Nat.mul_one _, hlt⟩
  have hrows : Rows.split code.length code = [code] := Rows.split_self hpos rfl
  have hne : code.length ≠ 0 := Nat.ne_of_gt hpos
  simp [packBlock, Packer.packAll, Packer.checkFlat, Packer.flat, hproduct, Packer.checkLength,
    hrows, Packer.packFrom, bind, Except.bind, pure, Except.pure, hne]

theorem codeSize_eq (hsize : s.codec.codeLength * s.codec.width < Word.size) :
    s.codeSize = .ok (s.codec.codeLength * s.codec.width) := by
  have hproduct : s.codec.codeSize? = some (s.codec.codeLength * s.codec.width) :=
    Word.product?_eq_some_iff.mpr ⟨rfl, hsize⟩
  rw [codeSize, hproduct]

theorem packer_eq (hsize : s.codec.codeLength * s.codec.width < Word.size) :
    s.packer = .ok (Packer.flat (s.codec.codeLength * s.codec.width)) := by
  rw [packer, codeSize_eq hsize]
  rfl

theorem codeSize_eq_error (hsize : Word.size ≤ s.codec.codeLength * s.codec.width) :
    s.codeSize = .error .overrun := by
  have hproduct : s.codec.codeSize? = none := Word.product?_eq_none_iff.mpr hsize
  rw [codeSize, hproduct]

theorem packer_eq_error (hsize : Word.size ≤ s.codec.codeLength * s.codec.width) :
    s.packer = .error .overrun := by
  rw [packer, codeSize_eq_error hsize]
  rfl

theorem Coherent.length_allBytes (h : Coherent s) :
    s.allBytes.length = s.physical * (s.codec.codeLength * s.codec.width) := by
  rw [allBytes, s.codec.length_bytes, h.codes_length, Nat.mul_assoc]

theorem le_of_codesRange {codes : List α} (hcodes : s.codesRange start count = .ok codes) :
    count = 0 ∨ start + count ≤ s.physical := by
  by_cases hcount : count = 0
  · exact Or.inl hcount
  · refine Or.inr (Nat.le_of_not_lt fun hlt => ?_)
    rw [codesRange_eq_error hcount hlt] at hcodes
    cases hcodes

theorem Coherent.length_codesRange (h : Coherent s) {codes : List α}
    (hcodes : s.codesRange start count = .ok codes) :
    codes.length = count * s.codec.codeLength := by
  rcases le_of_codesRange hcodes with rfl | hle
  · rw [codesRange, if_pos rfl] at hcodes
    cases hcodes
    exact (Nat.zero_mul _).symm
  · rw [h.codesRange_eq hle] at hcodes
    cases hcodes
    have hend : (start + count) * s.codec.codeLength ≤ s.codes.length := by
      rw [h.codes_length]
      exact Nat.mul_le_mul_right _ hle
    rw [Nat.add_mul] at hend
    rw [List.length_take, List.length_drop]
    omega

/-- What is packed has been granted once already, as codes. So no buffer is too long for it. -/
theorem Fits.fault?_packed (hf : Fits s) (h : Coherent s) {codes : List α}
    (hcodes : s.codesRange start count = .ok codes) :
    Word.product? count (s.codec.codeLength * s.codec.width) =
        some (count * (s.codec.codeLength * s.codec.width)) ∧
      Memory.fault? s.memory.packed (count * (s.codec.codeLength * s.codec.width)) =
        if count * (s.codec.codeLength * s.codec.width) ≤ s.memory.packed then none
        else some .ungranted := by
  have hbytes : count * (s.codec.codeLength * s.codec.width) ≤ Word.longestBuffer := by
    rcases le_of_codesRange hcodes with rfl | hle
    · rw [Nat.zero_mul]
      exact Nat.zero_le _
    · exact hf.bytes_le h hle
  constructor
  · refine Word.product?_eq_some_iff.mpr ⟨rfl, ?_⟩
    simp only [Word.longestBuffer, Word.size] at hbytes ⊢
    omega
  · rw [Memory.fault?, if_neg (Nat.not_lt.mpr hbytes)]
    split
    · rw [if_neg (by omega)]
    · rw [if_pos (by omega)]

/-- Packing a range gives the bytes of its codes, or is refused the room for them. -/
theorem packCodes_eq (h : Coherent s) (hf : Fits s) (hwidth : 0 < s.codec.width)
    (hsize : s.codec.codeLength * s.codec.width < Word.size) :
    s.packCodes start count = (s.codesRange start count).bind fun codes =>
      if count * (s.codec.codeLength * s.codec.width) ≤ s.memory.packed then
        .ok (s.codec.bytes codes)
      else .error (.packedExhausted count .ungranted) := by
  have hpos : 0 < s.codec.codeLength * s.codec.width := Nat.mul_pos h.codeLength_pos hwidth
  unfold packCodes
  rw [packer_eq hsize]
  cases hcodes : s.codesRange start count with
  | error e => rfl
  | ok codes =>
    have hlength : (s.codec.bytes codes).length = count * (s.codec.codeLength * s.codec.width) := by
      rw [s.codec.length_bytes, h.length_codesRange hcodes, Nat.mul_assoc]
    have hblocks : (Rows.split (s.codec.codeLength * s.codec.width) (s.codec.bytes codes)).mapM
        (packBlock (Packer.flat (s.codec.codeLength * s.codec.width))) =
          .ok ((Rows.split (s.codec.codeLength * s.codec.width) (s.codec.bytes codes)).map id) := by
      apply Rows.mapM_eq_pure_map
      intro row hrow
      have hrow := Rows.length_of_mem_split hrow
      rw [← hrow] at hpos hsize ⊢
      exact packBlock_flat hpos hsize
    have hcodeSize : (Packer.flat (s.codec.codeLength * s.codec.width)).codeSize =
        s.codec.codeLength * s.codec.width := rfl
    have hblockSize : (Packer.flat (s.codec.codeLength * s.codec.width)).blockSize =
        s.codec.codeLength * s.codec.width := rfl
    obtain ⟨hproduct, hfault⟩ := hf.fault?_packed h hcodes
    simp only [bind, Except.bind, pure, Except.pure, hcodeSize, hblockSize, hproduct, hfault,
      hblocks, List.map_id, Rows.flatten_split hpos hlength, if_neg (Nat.ne_of_gt hpos)]
    by_cases hroom : count * (s.codec.codeLength * s.codec.width) ≤ s.memory.packed
    · rw [if_pos hroom, if_pos hroom]
    · rw [if_neg hroom, if_neg hroom]
      rfl

theorem packCodes_eq_error (hsize : Word.size ≤ s.codec.codeLength * s.codec.width)
    (start count : Nat) : s.packCodes start count = .error .overrun := by
  rw [packCodes, packer_eq_error hsize]
  rfl

/-- Blocks of no bytes cannot be cut, not even out of nothing. -/
theorem packCodes_of_width_eq_zero (hwidth : s.codec.width = 0) :
    s.packCodes start count = (s.codesRange start count).bind fun _ => .error .overrun := by
  have hsize : s.codec.codeLength * s.codec.width = 0 := by rw [hwidth, Nat.mul_zero]
  unfold packCodes
  rw [packer_eq (by rw [hsize]; decide), hsize]
  cases s.codesRange start count with
  | error e => rfl
  | ok codes =>
    have hcodeSize : (Packer.flat 0).codeSize = 0 := rfl
    have hblockSize : (Packer.flat 0).blockSize = 0 := rfl
    have hproduct : Word.product? count 0 = some 0 := Word.product?_eq_some_iff.mpr ⟨rfl, by decide⟩
    have hfault : Memory.fault? s.memory.packed 0 = none :=
      Memory.fault?_eq_none_iff.mpr ⟨Nat.zero_le _, Nat.zero_le _⟩
    simp only [bind, Except.bind, hcodeSize, hblockSize, hproduct, hfault]
    rfl

end Store
end ExactNeighbors
