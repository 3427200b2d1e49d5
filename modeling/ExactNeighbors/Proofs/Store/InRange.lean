import Mathlib.Algebra.Order.Ring.Nat
import ExactNeighbors.Proofs.Store.Lifecycle
import ExactNeighbors.Proofs.Store.Ranges
import ExactNeighbors.Proofs.Store.Rebuild

/-! # Positions and sizes in range

The operations on a store check their arguments, but not the positions and sizes that they compute
from what the store holds. These are in range because the store is coherent and what it holds was
granted. So an operation that gives no result refuses its arguments. There are two exceptions.
Decoding asks for a buffer of vectors, which may be longer than the codes that they come from, and
packing starts from the bytes of a code, which may not be a number of 64 bits.
-/
namespace ExactNeighbors

/-- A reason that is about the arguments: no position past the end of a buffer, no division by a
width of zero and no size past the end of the 64-bit range. -/
def IndexError.IsRefusal : IndexError → Prop
  | .overrun | .packing .emptyCode | .packing .oversized => False
  | _ => True

section Refuses

variable {e : IndexError} {rest : Option IndexError}

/-- A check that finds fault with the arguments only. -/
def Refuses (fault? : Option IndexError) : Prop := ∀ e, fault? = some e → e.IsRefusal

theorem refuses_none : Refuses none := by
  intro e he
  cases he

theorem refuses_some (h : e.IsRefusal) : Refuses (some e) := by
  intro e' he
  cases he
  exact h

theorem refuses_map {α : Type} (x : Option α) {f : α → IndexError} (h : ∀ a, (f a).IsRefusal) :
    Refuses (x.map f) := by
  cases x with
  | none => exact refuses_none
  | some a => exact refuses_some (h a)

/-- One check before others. -/
theorem refuses_ite {p : Prop} [Decidable p] (h : e.IsRefusal) (hrest : Refuses rest) :
    Refuses (if p then some e else rest) := by
  split
  · exact refuses_some h
  · exact hrest

end Refuses

section Answered

variable {α β : Type} {answer : Except IndexError α}

/-- An operation gives a result or refuses its arguments. -/
def Answered (answer : Except IndexError α) : Prop := ∀ e, answer = .error e → e.IsRefusal

theorem answered_ok (x : α) : Answered (.ok x) := by
  intro e he
  cases he

theorem answered_error {e : IndexError} (h : e.IsRefusal) :
    Answered (.error e : Except IndexError α) := by
  intro e' he
  cases he
  exact h

theorem Answered.map (h : Answered answer) (f : α → β) : Answered (answer.map f) := by
  cases answer with
  | ok x => exact answered_ok (f x)
  | error e => exact answered_error (h e rfl)

theorem Answered.bind (h : Answered answer) {f : α → Except IndexError β}
    (hf : ∀ x, Answered (f x)) : Answered (answer >>= f) := by
  cases answer with
  | ok x => exact hf x
  | error e => exact answered_error (h e rfl)

end Answered

namespace Store

variable {α : Type} {s : Store α}

structure InRange (s : Store α) : Prop where
  dimension_pos : 0 < s.dimension
  codeLength_pos : 0 < s.codec.codeLength
  codeSize_pos : 0 < s.codec.codeLength * s.codec.width
  row_end_le : ∀ slot, slot < s.physical →
    slot * s.codec.codeLength + s.codec.codeLength ≤ s.codes.length
  codes_lt : s.codes.length < Word.size
  word_lt : ∀ slot, slot < s.physical ∨ slot < s.tombstones.length →
    slot / 64 < s.tombstones.words.length
  slotOf?_lt : ∀ label slot, s.slotOf? label = some slot → slot < s.physical
  free_lt : ∀ slot, slot ∈ s.free.members → slot < s.physical
  /-- A slot that is reused is taken off the pending ones. -/
  pending_pos : s.free.members ≠ [] → 0 < s.pending
  pending_le : s.pending ≤ s.physical
  size_free : s.free.size = s.pending
  countOnes_eq : s.tombstones.countOnes = s.pending
  nextLabel_lt : s.nextLabel < Word.size
  /-- The bitmap grows by what the code buffer has room for. -/
  reserved_lt : ∀ additional, s.reserve additional = .ok () → s.physical + additional < Word.size
  /-- Slots that are packed have a whole number of bytes. -/
  packed_lt : ∀ start count, start + count ≤ s.physical →
    count * (s.codec.codeLength * s.codec.width) < Word.size

/-- Every operation answers, whatever its arguments are. Those that cannot fail are left out, and
those that decode (`DecodesWithin`) or pack (`answered_packCodes_iff`) need more than that. -/
structure Responds (s : Store α) : Prop where
  add : ∀ x, Answered (s.add x)
  markDeleted : ∀ labels, Answered (s.markDeleted labels)
  reserve : ∀ additional, Answered (s.reserve additional)
  codesRange : ∀ start count, Answered (s.codesRange start count)
  code : ∀ slot, Answered (s.code slot)
  codeBytes : ∀ slot, Answered (s.codeBytes slot)

/-- Decoding answers unless the slots are there and their vectors make a longer buffer than there
is. -/
structure DecodesWithin (s : Store α) : Prop where
  reconstructRange_iff : ∀ start count, Answered (s.reconstructRange start count) ↔
    (start + count ≤ s.physical → VectorRoom s.codec count)
  reconstructSlot_iff : ∀ slot, Answered (s.reconstructSlot slot) ↔
    (slot < s.physical → VectorRoom s.codec 1)
  reconstruct_iff : ∀ label, Answered (s.reconstruct label) ↔
    (∀ slot, s.slotOf? label = some slot → VectorRoom s.codec 1)

theorem refuses_addFault? (s : Store α) (x : List Single) : Refuses (s.addFault? x) := by
  refine refuses_ite trivial (refuses_ite trivial ?_)
  split
  · exact refuses_none
  · exact refuses_map _ fun fault => trivial

theorem refuses_refusal? (s : Store α) (earlier : List Nat) (label : Nat) :
    Refuses (s.refusal? earlier label) := by
  unfold refusal?
  split
  · exact refuses_some trivial
  · exact refuses_ite trivial refuses_none

theorem answered_add (h : Coherent s) (x : List Single) : Answered (s.add x) := by
  cases hx : s.addFault? x with
  | some e =>
    rw [add_eq, hx]
    exact answered_error (refuses_addFault? s x e hx)
  | none =>
    obtain ⟨t, ht, -⟩ := add_eq_ok h hx
    rw [ht]
    exact answered_ok _

theorem answered_markDeleted (h : Coherent s) (labels : List Nat) :
    Answered (s.markDeleted labels) := by
  rcases deletable_or_refused s labels with hd | ⟨earlier, label, rest, e, rfl, hd, he⟩
  · obtain ⟨t, ht, -⟩ := markDeleted_eq_ok h hd
    rw [ht]
    exact answered_ok _
  · rw [markDeleted_eq_error h hd he]
    exact answered_error (refuses_refusal? s earlier label e he)

theorem answered_reserve (s : Store α) (additional : Nat) : Answered (s.reserve additional) := by
  unfold reserve
  split
  · exact answered_error trivial
  · exact answered_ok _

theorem answered_codesRange (h : Coherent s) (start count : Nat) :
    Answered (s.codesRange start count) := by
  by_cases hle : start + count ≤ s.physical
  · rw [h.codesRange_eq hle]
    exact answered_ok _
  · by_cases hcount : count = 0
    · rw [codesRange, if_pos hcount]
      exact answered_ok _
    · rw [codesRange_eq_error hcount (by omega)]
      exact answered_error trivial

theorem answered_resolve (s : Store α) (label : Nat) : Answered (s.resolve label) := by
  unfold resolve
  split
  · exact answered_ok _
  · exact answered_error trivial

theorem responds (h : Coherent s) : Responds s := by
  have hrange := answered_codesRange h
  constructor
  case add => exact answered_add h
  case markDeleted => exact answered_markDeleted h
  case reserve => exact answered_reserve s
  case codesRange => exact hrange
  case code => exact fun slot => hrange slot 1
  case codeBytes => exact fun slot => (hrange slot 1).map _

/-- Packing answers as long as the bytes of a code are a number of 64 bits. -/
theorem answered_packCodes_iff (h : Coherent s) (hf : Fits s) (hwidth : 0 < s.codec.width)
    (start count : Nat) : Answered (s.packCodes start count) ↔
      s.codec.codeLength * s.codec.width < Word.size := by
  constructor
  · intro hanswered
    refine Nat.not_le.mp fun hsize => ?_
    exact hanswered _ (packCodes_eq_error hsize start count)
  · intro hsize
    rw [packCodes_eq h hf hwidth hsize]
    refine (answered_codesRange h start count).bind fun codes => ?_
    split
    · exact answered_ok _
    · exact answered_error trivial

theorem answered_reconstructRange_iff (h : Coherent s) (start count : Nat) :
    Answered (s.reconstructRange start count) ↔
      (start + count ≤ s.physical → VectorRoom s.codec count) := by
  have hreads := h.readsSlots_vectors
  constructor
  · intro hanswered hle
    refine by_contra fun hroom => ?_
    exact hanswered _ (hreads.refused start count hle hroom)
  · intro hroom
    rcases Nat.lt_or_ge s.physical (start + count) with hlt | hle
    · by_cases hcount : count = 0
      · rw [hcount, hreads.empty start]
        exact answered_ok _
      · rw [hreads.beyond start count hcount hlt]
        exact answered_error trivial
    · rw [hreads.within start count hle (hroom hle)]
      exact answered_ok _

theorem decodesWithin (h : Coherent s) : DecodesWithin s := by
  have hrange := answered_reconstructRange_iff h
  constructor
  case reconstructRange_iff => exact hrange
  case reconstructSlot_iff => exact fun slot => hrange slot 1
  case reconstruct_iff =>
    intro label
    cases hs : s.slotOf? label with
    | none =>
      rw [reconstruct, resolve, hs]
      exact iff_of_true (answered_error trivial) fun slot hslot => by cases hslot
    | some slot =>
      have hlt := h.lt_physical_of_slotOf? hs
      rw [reconstruct_eq hs, reconstructSlot, hrange slot 1]
      exact ⟨fun hroom other hother => hroom hlt, fun hroom _ => hroom slot rfl⟩

structure Decodes (s : Store α) : Prop where
  reconstructRange : ∀ start count, Answered (s.reconstructRange start count)
  reconstructSlot : ∀ slot, Answered (s.reconstructSlot slot)
  reconstruct : ∀ label, Answered (s.reconstruct label)

/-- Raw components are decoded to as many bytes as they have. -/
theorem decodes_of_flat {s : Store Single} (h : Coherent s) (hf : Fits s)
    (hcodec : s.codec = .flat s.dimension) : Decodes s := by
  have hroom : ∀ start count, start + count ≤ s.physical → VectorRoom s.codec count :=
    fun start count hle => hf.vectors_le h hcodec hle
  have hwithin := decodesWithin h
  constructor
  case reconstructRange =>
    exact fun start count => (hwithin.reconstructRange_iff start count).mpr (hroom start count)
  case reconstructSlot =>
    exact fun slot => (hwithin.reconstructSlot_iff slot).mpr (hroom slot 1)
  case reconstruct =>
    refine fun label => (hwithin.reconstruct_iff label).mpr fun slot hs => ?_
    exact hroom slot 1 (h.lt_physical_of_slotOf? hs)

/-- Labels are fewer than the vectors that were ever inserted. -/
theorem nextLabel_run_le (h : Coherent s) (calls : List Call) :
    (s.run calls).nextLabel ≤ s.nextLabel + (s.issued calls).length := by
  induction calls generalizing s with
  | nil => exact Nat.le_add_right _ _
  | cons call calls ih =>
    have hrest := ih (h.after call).1
    have hcall : (s.after call).nextLabel ≤ s.nextLabel + (s.issuedBy call).length := by
      cases h.effect call with
      | placed x labels t _ _ ht hi _ hlabels hp =>
        rw [ht, hi, hp.nextLabel_eq, hlabels, List.length_range', Rows.length_split]
      | buried labels pending t _ _ ht _ _ _ _ hb =>
        rw [ht, hb.nextLabel_eq]
        exact Nat.le_add_right _ _
      | reset _ ht =>
        rw [ht]
        exact Nat.zero_le _
      | idle ht =>
        rw [ht]
        exact Nat.le_add_right _ _
    rw [run_cons, issued, List.length_append]
    omega

theorem physical_add_lt {additional : Nat} (hreserve : s.reserve additional = .ok ()) :
    s.physical + additional < Word.size := by
  obtain ⟨-, hholds⟩ := roomFault?_eq_none_iff.mp (reserve_eq_ok_iff.mp hreserve)
  have hslots := hholds.slots_le
  have hle := s.memory.slots_le
  simp only [Word.longestBuffer, Word.size] at hle ⊢
  omega

theorem inRange (h : Coherent s) (hf : Fits s) (hwidth : 0 < s.codec.width)
    (hnext : s.nextLabel < Word.size) : InRange s := by
  constructor
  case dimension_pos => exact h.dimension_pos
  case codeLength_pos => exact h.codeLength_pos
  case codeSize_pos => exact Nat.mul_pos h.codeLength_pos hwidth
  case row_end_le => exact fun slot hslot => h.codeRow_end_le hslot
  case codes_lt => exact hf.codes_lt_size hwidth
  case word_lt =>
    intro slot hslot
    apply h.tombstones_sound.word_lt
    rw [h.tombstones_length] at hslot ⊢
    exact hslot.elim id id
  case slotOf?_lt => exact fun label slot hs => h.lt_physical_of_slotOf? hs
  case free_lt => exact fun slot hm => h.lt_physical_of_deleted ((h.mem_free_iff slot).mp hm)
  case pending_pos =>
    intro hne
    rw [h.pending_eq]
    exact List.length_pos_of_ne_nil hne
  case pending_le => exact h.pending_le
  case size_free => exact h.pending_eq.symm
  case countOnes_eq => exact h.countOnes_eq
  case nextLabel_lt => exact hnext
  case reserved_lt => exact fun additional hreserve => physical_add_lt hreserve
  case packed_lt =>
    intro start count hle
    have hbytes := hf.bytes_le h hle
    simp only [Word.longestBuffer, Word.size] at hbytes ⊢
    omega

section Repeated

variable {x : List Single} {m : Nat}

/-- One more vector is stored behind all others, where no slot is dead. -/
theorem physical_add_one (h : Coherent s) (hfree : s.free.members = [])
    (htrained : s.codec.isTrained = true) (hx : x.length = s.dimension)
    (hroom : s.roomFault? 1 = none) :
    ∃ t, s.add x = .ok ([s.nextLabel], t) ∧ Coherent t ∧ t.free.members = [] ∧
      t.memory = s.memory ∧ t.codec = s.codec ∧ t.physical = s.physical + 1 := by
  have hone : x.length / s.dimension = 1 := by rw [hx, Nat.div_self h.dimension_pos]
  have hfault : s.addFault? x = none := addFault?_of_reserve h.dimension_pos htrained
    (hx.trans (Nat.one_mul _).symm) fun _ => reserve_eq_ok_iff.mpr hroom
  have hrow := Rows.split_self h.dimension_pos hx
  obtain ⟨t, hall, ht⟩ := placeAll_append hfree [x]
  have hadd : s.add x = .ok ([s.nextLabel], t) := by
    rw [add_eq_placeAll hfault, hrow, hall]
    rfl
  obtain ⟨-, hp⟩ := placedAll_of_add h hadd
  refine ⟨t, hadd, hp.coherent h, ht.free_eq, hp.memory_eq, ht.codec_eq, ?_⟩
  rw [physical, ht.labels_eq, List.length_append]
  rfl

/-- A vector inserted again and again takes a slot each time, as long as there is room. -/
theorem run_repeated (h : Coherent s) (hfree : s.free.members = [])
    (htrained : s.codec.isTrained = true) (hx : x.length = s.dimension)
    (hlength : s.codec.codeLength < Word.size)
    (hroom : s.memory.Holds ((s.physical + m) * s.codec.codeLength * s.codec.width)
      (s.physical + m)) :
    (s.run (List.replicate m (.add x))).physical = s.physical + m ∧
      (s.issued (List.replicate m (.add x))).length = m := by
  induction m generalizing s with
  | zero => exact ⟨rfl, rfl⟩
  | succ m ih =>
    have hgranted : s.roomFault? 1 = none := by
      rw [roomFault?_eq_none_iff, h.codes_length, ← Nat.add_mul, Nat.one_mul]
      exact ⟨hlength, hroom.mono
        (Nat.mul_le_mul_right _ (Nat.mul_le_mul_right _ (by omega))) (by omega)⟩
    obtain ⟨t, hadd, ht, htfree, hmemory, hcodec, hphysical⟩ :=
      physical_add_one h hfree htrained hx hgranted
    have hafter : s.after (.add x) = t := by rw [after, hadd]
    have hissued : s.issuedBy (.add x) = [s.nextLabel] := by rw [issuedBy, hadd]
    have hcount : t.physical + m = s.physical + (m + 1) := by omega
    obtain ⟨hrun, hlabels⟩ := ih ht htfree (hcodec ▸ htrained)
      (hx.trans (congrArg Codec.dimension hcodec).symm) (hcodec ▸ hlength)
      (by rw [hmemory, hcodec, hcount]; exact hroom)
    rw [List.replicate_succ, run_cons, issued, hafter, hissued, List.length_append, hrun, hlabels]
    exact ⟨hcount, Nat.add_comm 1 m⟩

end Repeated

/-- The invariants hold after any run on a new store, so that nothing is ever out of range. -/
theorem inRange_run (memory : Memory) {codec : Codec α} (metric : Metric)
    (hd : 1 ≤ codec.dimension) (hc : 1 ≤ codec.codeLength) (hwidth : 1 ≤ codec.width)
    (calls : List Call) : ∃ s₀, Store.new memory codec metric = .ok s₀ ∧
      ((s₀.issued calls).length < Word.size →
        InRange (s₀.run calls) ∧ Responds (s₀.run calls) ∧ DecodesWithin (s₀.run calls) ∧
          ∀ start count, Answered ((s₀.run calls).packCodes start count) ↔
            codec.codeLength * codec.width < Word.size) := by
  have hnew := new_eq memory metric hd hc
  refine ⟨_, hnew, fun hissued => ?_⟩
  have h₀ := coherent_of_new hnew
  obtain ⟨h, hcodec : (Store.run { memory, codec, metric } calls).codec = codec⟩ := h₀.run calls
  have hf := (fits_of_new hnew).run h₀ calls
  have hnext := (nextLabel_run_le h₀ calls).trans_lt (by simpa using hissued)
  rw [← hcodec] at hwidth
  refine ⟨inRange h hf hwidth hnext, responds h, decodesWithin h, fun start count => ?_⟩
  rw [answered_packCodes_iff h hf hwidth, hcodec]

end Store
end ExactNeighbors
