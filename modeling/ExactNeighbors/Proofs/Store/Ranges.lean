import Mathlib.Algebra.Order.Ring.Nat
import ExactNeighbors.Proofs.Store.Packed

/-! # Ranges of slots

Codes, decoded vectors and packed bytes of a range are read in three ways: by a slice, row by row,
and block by block through the packer. All three read slot by slot, and refuse a range where it
leaves the slots. Beyond that only room for what is read can be missing.
-/
namespace ExactNeighbors

namespace Store

variable {α β γ : Type} {s : Store α} {start count : Nat}

/-- Ranges are read slot by slot, each of which has its `content`. An empty range is never out of
bounds, any other one is read when its slots are all there and there is room for so many. -/
structure ReadsSlots (s : Store α) (room : Nat → Prop) (refusal : Nat → IndexError)
    (read : Nat → Nat → Except IndexError (List β)) (content : Nat → List β) : Prop where
  empty : ∀ start, read start 0 = .ok []
  within : ∀ start count, start + count ≤ s.physical → room count →
    read start count = .ok ((List.range' start count).flatMap content)
  beyond : ∀ start count, count ≠ 0 → s.physical < start + count →
    read start count = .error (.outOfBounds start count s.physical)
  refused : ∀ start count, start + count ≤ s.physical → ¬room count →
    read start count = .error (refusal count)

namespace ReadsSlots

variable {room room' : Nat → Prop} {refusal refusal' : Nat → IndexError}
variable {read : Nat → Nat → Except IndexError (List β)} {content : Nat → List β} {out : List β}

theorem succeeds_iff (h : ReadsSlots s room refusal read content) (start : Nat)
    (hroom : room count) :
    (∃ out, read start count = .ok out) ↔ count = 0 ∨ start + count ≤ s.physical := by
  constructor
  · rintro ⟨out, hread⟩
    refine Decidable.byContradiction fun hunfit => ?_
    rw [h.beyond start count (by omega) (by omega)] at hread
    cases hread
  · rintro (rfl | hle)
    · exact ⟨_, h.empty start⟩
    · exact ⟨_, h.within start count hle hroom⟩

/-- What is read is in bounds, and there was room for it. -/
theorem within_of_ok (h : ReadsSlots s room refusal read content)
    (hread : read start count = .ok out) : count = 0 ∨ start + count ≤ s.physical ∧ room count := by
  refine or_iff_not_imp_left.mpr fun hcount => ?_
  have hle : start + count ≤ s.physical := by
    refine Nat.le_of_not_lt fun hlt => ?_
    rw [h.beyond start count hcount hlt] at hread
    cases hread
  refine ⟨hle, by_contra fun hroom => ?_⟩
  rw [h.refused start count hle hroom] at hread
  cases hread

theorem eq_of_ok (h : ReadsSlots s room refusal read content)
    (hread : read start count = .ok out) : out = (List.range' start count).flatMap content := by
  rcases h.within_of_ok hread with rfl | ⟨hle, hroom⟩
  · rw [h.empty] at hread
    exact (Except.ok.inj hread).symm
  · rw [h.within start count hle hroom] at hread
    exact (Except.ok.inj hread).symm

/-- A range is read in two parts, where room for more is room for less. -/
theorem append (h : ReadsSlots s room refusal read content)
    (hmono : ∀ fewer more, fewer ≤ more → room more → room fewer) {a b : Nat}
    (hread : read start (a + b) = .ok out) : ∃ first second,
      read start a = .ok first ∧ read (start + a) b = .ok second ∧ out = first ++ second := by
  obtain ⟨⟨first, hfirst⟩, second, hsecond⟩ :
      (∃ first, read start a = .ok first) ∧ ∃ second, read (start + a) b = .ok second := by
    rcases h.within_of_ok hread with hnone | ⟨hle, hroom⟩
    · obtain ⟨rfl, rfl⟩ : a = 0 ∧ b = 0 := by omega
      exact ⟨⟨_, h.empty start⟩, _, h.empty _⟩
    · exact ⟨⟨_, h.within start a (by omega) (hmono _ _ (Nat.le_add_right a b) hroom)⟩,
        _, h.within (start + a) b (by omega) (hmono _ _ (Nat.le_add_left b a) hroom)⟩
  refine ⟨first, second, hfirst, hsecond, ?_⟩
  rw [h.eq_of_ok hread, h.eq_of_ok hfirst, h.eq_of_ok hsecond, ← List.flatMap_append,
    List.range'_append_1]

/-- What is done to the codes of each slot may be done to the codes of a range, where there is room
for the outcome. -/
theorem guard (h : ReadsSlots s room refusal read content) (hall : ∀ count, room count)
    [DecidablePred room'] (hnone : room' 0) {f : List β → List γ} {image : Nat → List γ}
    (hf : ∀ start count, count = 0 ∨ start + count ≤ s.physical →
      f ((List.range' start count).flatMap content) = (List.range' start count).flatMap image) :
    ReadsSlots s room' refusal'
      (fun start count => (read start count).bind fun codes =>
        if room' count then .ok (f codes) else .error (refusal' count)) image where
  empty start := by
    rw [h.empty start, Except.bind, if_pos hnone]
    exact congrArg Except.ok (hf start 0 (Or.inl rfl))
  within start count hle hroom := by
    rw [h.within start count hle (hall count), Except.bind, if_pos hroom,
      hf start count (Or.inr hle)]
  beyond start count hcount hlt := by
    rw [h.beyond start count hcount hlt]
    rfl
  refused start count hle hroom := by
    rw [h.within start count hle (hall count), Except.bind, if_neg hroom]

end ReadsSlots

structure ReadsRanges (s : Store α) (room : Nat → Prop) (refusal : Nat → IndexError)
    (read : Nat → Nat → Except IndexError (List β)) (content : Nat → List β) : Prop extends
    ReadsSlots s room refusal read content where
  succeeds_iff : ∀ start count, room count →
    ((∃ out, read start count = .ok out) ↔ count = 0 ∨ start + count ≤ s.physical)
  append : ∀ start a b out, read start (a + b) = .ok out → ∃ first second,
    read start a = .ok first ∧ read (start + a) b = .ok second ∧ out = first ++ second

theorem ReadsSlots.ranges {room : Nat → Prop} {refusal : Nat → IndexError}
    {read : Nat → Nat → Except IndexError (List β)} {content : Nat → List β}
    (h : ReadsSlots s room refusal read content)
    (hmono : ∀ fewer more, fewer ≤ more → room more → room fewer) :
    ReadsRanges s room refusal read content :=
  { h with
    succeeds_iff := fun start _ hroom => h.succeeds_iff start hroom
    append := fun _ _ _ _ hread => h.append hmono hread }

/-- There is room for the decoded vectors of so many slots. -/
def VectorRoom (codec : Codec α) (count : Nat) : Prop :=
  4 * (count * codec.dimension) ≤ Word.longestBuffer

instance (codec : Codec α) : DecidablePred (VectorRoom codec) :=
  fun _ => inferInstanceAs (Decidable (_ ≤ _))

def BlockRoom (memory : Memory) (codec : Codec α) (count : Nat) : Prop :=
  count * (codec.codeLength * codec.width) ≤ memory.packed

instance (memory : Memory) (codec : Codec α) : DecidablePred (BlockRoom memory codec) :=
  fun _ => inferInstanceAs (Decidable (_ ≤ _))

theorem vectorRoom_mono (codec : Codec α) (fewer more : Nat) (hle : fewer ≤ more)
    (hroom : VectorRoom codec more) : VectorRoom codec fewer :=
  (Nat.mul_le_mul_left _ (Nat.mul_le_mul_right _ hle)).trans hroom

theorem blockRoom_mono (memory : Memory) (codec : Codec α) (fewer more : Nat) (hle : fewer ≤ more)
    (hroom : BlockRoom memory codec more) : BlockRoom memory codec fewer :=
  (Nat.mul_le_mul_right _ hle).trans hroom

namespace Coherent

theorem readsSlots_codes (h : Coherent s) :
    ReadsSlots s (fun _ => True) (fun _ => .overrun) s.codesRange s.codeOf where
  empty _ := if_pos rfl
  within start count hle _ := by
    rw [h.codesRange_eq hle, ← Rows.flatMap_rowAt]
    rfl
  beyond _ _ hcount hlt := codesRange_eq_error hcount hlt
  refused _ _ _ hroom := absurd trivial hroom

/-- Cutting the codes of a range finds the slots again. -/
theorem readsSlots_vectors (h : Coherent s) :
    ReadsSlots s (VectorRoom s.codec) (fun _ => .overrun) s.reconstructRange
      fun slot => s.codec.decode (s.codeOf slot) := by
  refine h.readsSlots_codes.guard (fun _ => trivial) ?_ fun start count hfits => ?_
  · rw [VectorRoom, Nat.zero_mul]
    exact Nat.zero_le _
  · have hrows : ∀ row ∈ (List.range' start count).map s.codeOf,
        row.length = s.codec.codeLength := by
      intro row hrow
      obtain ⟨slot, hslot, rfl⟩ := List.mem_map.mp hrow
      have hslot := List.mem_range'_1.mp hslot
      exact h.length_codeOf (by omega)
    have hsplit : Rows.split s.codec.codeLength ((List.range' start count).flatMap s.codeOf) =
        (List.range' start count).map s.codeOf := Rows.split_flatten h.codeLength_pos hrows
    rw [hsplit, List.flatMap_map]

theorem readsSlots_bytes (h : Coherent s) (hf : Fits s) (hwidth : 0 < s.codec.width)
    (hsize : s.codec.codeLength * s.codec.width < Word.size) :
    ReadsSlots s (BlockRoom s.memory s.codec) (fun count => .packedExhausted count .ungranted)
      s.packCodes fun slot => s.codec.bytes (s.codeOf slot) := by
  have hpack : s.packCodes = fun start count => (s.codesRange start count).bind fun codes =>
      if BlockRoom s.memory s.codec count then .ok (s.codec.bytes codes)
      else .error (.packedExhausted count .ungranted) :=
    funext fun _ => funext fun _ => packCodes_eq h hf hwidth hsize
  rw [hpack]
  refine h.readsSlots_codes.guard (fun _ => trivial) ?_ fun _ _ _ => s.codec.bytes_flatMap _ _
  rw [BlockRoom, Nat.zero_mul]
  exact Nat.zero_le _

/-- The bytes of a range are a slice of all bytes. -/
theorem slice?_allBytes (h : Coherent s) (hle : start + count ≤ s.physical) :
    Rows.slice? (start * (s.codec.codeLength * s.codec.width))
        ((start + count) * (s.codec.codeLength * s.codec.width)) s.allBytes =
      some ((List.range' start count).flatMap fun slot => s.codec.bytes (s.codeOf slot)) := by
  have hend : (start + count) * s.codec.codeLength ≤ s.codes.length := by
    rw [h.codes_length]
    exact Nat.mul_le_mul_right _ hle
  have hcodes : (List.range' start count).flatMap s.codeOf =
      (s.codes.drop (start * s.codec.codeLength)).take (count * s.codec.codeLength) :=
    Rows.flatMap_rowAt _ _ _ _
  have hstart : start * (s.codec.codeLength * s.codec.width) ≤
      (start + count) * (s.codec.codeLength * s.codec.width) :=
    Nat.mul_le_mul_right _ (Nat.le_add_right start count)
  have hstop : (start + count) * (s.codec.codeLength * s.codec.width) ≤ s.allBytes.length := by
    rw [h.length_allBytes]
    exact Nat.mul_le_mul_right _ hle
  rw [Nat.add_mul] at hend
  rw [Rows.slice?, if_pos ⟨hstart, hstop⟩, ← s.codec.bytes_flatMap, hcodes, allBytes, ← Nat.sub_mul,
    Nat.add_sub_cancel_left, ← Nat.mul_assoc, ← Nat.mul_assoc,
    s.codec.drop_bytes _ (by omega), s.codec.take_bytes _ (by rw [List.length_drop]; omega)]

end Coherent

/-- The three readings of a range agree after any run: codes, decoded vectors and, where code
elements have bytes, packed blocks, which are then a slice of all bytes. Vectors and blocks need
room for themselves. Where code elements have no bytes, packing stops instead of giving nothing. -/
theorem ranges_agree {memory : Memory} {codec : Codec α} {metric : Metric} {s₀ : Store α}
    (hnew : Store.new memory codec metric = .ok s₀)
    (hsize : codec.codeLength * codec.width < 2 ^ 63) (calls : List Call) :
    let s := s₀.run calls
    ReadsRanges s (fun _ => True) (fun _ => .overrun) s.codesRange s.codeOf ∧
    ReadsRanges s (VectorRoom codec) (fun _ => .overrun) s.reconstructRange
      (fun slot => codec.decode (s.codeOf slot)) ∧
    (∀ slot, slot < s.physical → s.code slot = .ok (s.codeOf slot) ∧
      s.codeBytes slot = .ok (codec.bytes (s.codeOf slot)) ∧
      (VectorRoom codec 1 → s.reconstructSlot slot = .ok (codec.decode (s.codeOf slot)))) ∧
    (∀ start count, start + count ≤ s.physical →
      Rows.slice? (start * (codec.codeLength * codec.width))
          ((start + count) * (codec.codeLength * codec.width)) s.allBytes =
        some ((List.range' start count).flatMap fun slot => codec.bytes (s.codeOf slot))) ∧
    (1 ≤ codec.width →
      ReadsRanges s (BlockRoom memory codec) (fun count => .packedExhausted count .ungranted)
        s.packCodes fun slot => codec.bytes (s.codeOf slot)) ∧
    (codec.width = 0 → ∀ start count,
      s.packCodes start count = (s.codesRange start count).bind fun _ => .error .overrun) := by
  intro s
  have h₀ := coherent_of_new hnew
  have hf : Fits s := (fits_of_new hnew).run h₀ calls
  obtain ⟨h, hcodec⟩ := h₀.run calls
  have hmemory := h₀.memory_run calls
  obtain ⟨rfl, -, -⟩ := eq_of_new hnew
  have hcodec : codec = s.codec := hcodec.symm
  have hmemory : memory = s.memory := hmemory.symm
  have hword : codec.codeLength * codec.width < Word.size := by
    simp only [Word.size]
    omega
  rw [hcodec] at hword ⊢
  rw [hmemory]
  refine ⟨h.readsSlots_codes.ranges fun _ _ _ _ => trivial,
    h.readsSlots_vectors.ranges (vectorRoom_mono _),
    fun slot hslot => ⟨h.code_eq hslot, h.codeBytes_eq hslot, ?_⟩,
    fun start count hle => h.slice?_allBytes hle,
    fun hwidth => (h.readsSlots_bytes hf hwidth hword).ranges (blockRoom_mono _ _),
    fun hwidth start count => packCodes_of_width_eq_zero hwidth⟩
  intro hroom
  rw [VectorRoom, Nat.one_mul] at hroom
  exact h.reconstructSlot_eq hroom hslot

/-- A slot that is dead and one that is used again, read in one range. -/
theorem ranges_agree_recycled : (Codec.flat 1).codeLength * (Codec.flat 1).width < 2 ^ 63 ∧
    VectorRoom (Codec.flat 1) 3 ∧ BlockRoom .host (Codec.flat 1) 2 ∧
    ∃ s₀, Store.new .host (Codec.flat 1) .l2 = .ok s₀ ∧
      let s := s₀.run [.add [⟨1⟩, ⟨2⟩, ⟨3⟩], .delete [0, 2], .add [⟨0x40400000⟩]]
      s.isDeleted 2 = true ∧
        s.reconstructRange 0 3 = .ok [⟨0x40400000⟩, ⟨2⟩, ⟨3⟩] ∧
        s.packCodes 1 2 = .ok [2, 0, 0, 0, 3, 0, 0, 0] ∧ s.packCodes 9 0 = .ok [] ∧
        s.codesRange 2 2 = .error (.outOfBounds 2 2 3) := by
  have hnew : Store.new .host (Codec.flat 1) .l2 =
      .ok { memory := .host, codec := Codec.flat 1, metric := .l2 } := rfl
  have hvectorRoom : VectorRoom (Codec.flat 1) 3 := by decide
  have hblockRoom : BlockRoom .host (Codec.flat 1) 2 := by decide
  obtain ⟨hcodes, hvectors, -, -, hpacked, -⟩ := ranges_agree hnew (by decide)
    [.add [⟨1⟩, ⟨2⟩, ⟨3⟩], .delete [0, 2], .add [⟨0x40400000⟩]]
  have hbytes := hpacked (by decide)
  refine ⟨by decide, hvectorRoom, hblockRoom, _, hnew, by decide, ?_, ?_, ?_, ?_⟩
  · exact (hvectors.within 0 3 (by decide) hvectorRoom).trans (congrArg Except.ok (by decide))
  · exact (hbytes.within 1 2 (by decide) hblockRoom).trans (congrArg Except.ok (by decide))
  · exact hbytes.empty 9
  · exact hcodes.beyond 2 2 (by decide) (by decide)

/-- A codec whose code elements have no bytes. -/
def weightless : Codec Unit where
  dimension := 1
  codeLength := 1
  width := 0
  isTrained := true
  encode _ := [()]
  decode _ := [⟨0⟩]
  elementBytes _ := []
  length_encode _ _ := rfl
  length_decode _ _ := rfl
  length_elementBytes _ := rfl

/-- Blocks of no bytes cannot be cut, so that even an empty range of them is not packed. -/
theorem blocks_of_no_bytes : weightless.codeLength * weightless.width < 2 ^ 63 ∧
    BlockRoom .host weightless 1 ∧
    ∃ s₀, Store.new .host weightless .l2 = .ok s₀ ∧
      let s := s₀.run [.add [⟨1⟩]]
      s.physical = 1 ∧ s.codesRange 0 1 = .ok [()] ∧ s.reconstructRange 0 1 = .ok [⟨0⟩] ∧
        s.packCodes 0 0 = .error .overrun ∧ s.packCodes 0 1 = .error .overrun :=
  ⟨by decide, by decide, _, rfl, rfl, rfl, rfl, rfl, rfl⟩

end Store
end ExactNeighbors
