import Mathlib
import ExactNeighbors.Index.Search
import ExactNeighbors.Proofs.Bitmap

/-! # Two forms of an explicit set

A set of bits holds an id in one place, bit `id % 8` of byte `id / 8`. Growing it adds zeros, and
setting a bit changes no other one, so inserting a list of ids one by one leaves exactly those bits
set. The ascending list of the same ids has the same members. A search looks at a selector only
through what it accepts.
-/
namespace ExactNeighbors

namespace BitSet

variable {s : BitSet} {id x : Nat}

def bit (s : BitSet) (id : Nat) : Bool := (s.bytes.getD (id / 8) 0).toBitVec.getLsbD (id % 8)

theorem getLsbD_mask (h : x / 8 = id / 8) :
    (mask id).toBitVec.getLsbD (x % 8) = decide (x = id) := by
  have hid : id % 8 < 8 := Nat.mod_lt _ (by decide)
  have heq : id % 8 = x % 8 ↔ x = id := by omega
  simp only [mask, BitVec.getLsbD_twoPow, hid, decide_true, Bool.true_and, heq]

/-- Masking keeps one bit, so the rest is zero exactly when that bit is not set. -/
theorem and_mask_ne_zero (b : UInt8) (id : Nat) :
    (b &&& mask id != 0) = b.toBitVec.getLsbD (id % 8) := by
  have hid : id % 8 < 8 := Nat.mod_lt _ (by decide)
  have hand : (b &&& mask id).toBitVec =
      if b.toBitVec.getLsbD (id % 8) then BitVec.twoPow 8 (id % 8) else 0#8 := by
    rw [UInt8.toBitVec_and, mask, BitVec.and_twoPow]
  have hpow : BitVec.twoPow 8 (id % 8) ≠ 0#8 := by
    intro h
    have hbit := congrArg (fun v => v.getLsbD (id % 8)) h
    simp [hid] at hbit
  cases hb : b.toBitVec.getLsbD (id % 8) with
  | false =>
    rw [hb, if_neg Bool.false_ne_true] at hand
    have hzero : b &&& mask id = 0 := UInt8.toBitVec_inj.mp hand
    rw [hzero]
    rfl
  | true =>
    rw [hb, if_pos rfl] at hand
    rw [bne_iff_ne]
    intro h
    rw [h] at hand
    exact hpow hand.symm

theorem contains_eq_bit (s : BitSet) (id : Nat) : s.contains id = s.bit id := by
  rw [contains, bit, List.getD_eq_getElem?_getD]
  cases s.bytes[id / 8]? with
  | none => simp
  | some b => exact and_mask_ne_zero b id

def grown (s : BitSet) (id : Nat) : List UInt8 :=
  s.bytes ++ List.replicate (id / 8 + 1 - s.bytes.length) 0

theorem getD_grown (s : BitSet) (id n : Nat) : (s.grown id).getD n 0 = s.bytes.getD n 0 := by
  simp only [grown, List.getD_eq_getElem?_getD, List.getElem?_append, List.getElem?_replicate]
  split
  · rfl
  · rename_i h
    rw [List.getElem?_eq_none (Nat.not_lt.mp h)]
    split <;> rfl

theorem lt_length_grown (s : BitSet) (id : Nat) : id / 8 < (s.grown id).length := by
  rw [grown, List.length_append, List.length_replicate]
  omega

/-- An insertion sets one bit, whether the set has to grow for it or not. -/
theorem contains_insert (s : BitSet) (id x : Nat) :
    (s.insert id).contains x = (s.contains x || decide (x = id)) := by
  have hbytes : (s.insert id).bytes = (s.grown id).modify (id / 8) (· ||| mask id) := rfl
  have hbyte := Bitmap.getD_modify 0 (· ||| mask id) (s.grown id) (id / 8) (x / 8)
    (s.lt_length_grown id)
  rw [contains_eq_bit, contains_eq_bit, bit, hbytes, hbyte, getD_grown, getD_grown, bit]
  by_cases h : x / 8 = id / 8
  · rw [if_pos h, UInt8.toBitVec_or, BitVec.getLsbD_or, getLsbD_mask h, h]
  · have hne : x ≠ id := fun e => h (by rw [e])
    rw [if_neg h, decide_eq_false hne, Bool.or_false]

theorem contains_foldl_insert (s : BitSet) (ids : List Nat) (x : Nat) :
    (ids.foldl insert s).contains x = (s.contains x || decide (x ∈ ids)) := by
  induction ids generalizing s with
  | nil => simp
  | cons id ids ih =>
    rw [List.foldl_cons, ih, contains_insert, Bool.or_assoc]
    simp only [List.mem_cons, Bool.decide_or]

theorem contains_ofList (ids : List Nat) (x : Nat) :
    (ofList ids).contains x = decide (x ∈ ids) := by
  rw [ofList, contains_foldl_insert]
  simp [contains]

theorem contains_iff (s : BitSet) (id : Nat) : s.contains id = true ↔
    id < 8 * s.bytes.length ∧ (s.bytes.getD (id / 8) 0).toNat.testBit (id % 8) = true := by
  rw [contains_eq_bit, bit, BitVec.getLsbD, UInt8.toNat_toBitVec]
  refine ⟨fun h => ⟨?_, h⟩, fun h => h.2⟩
  by_contra hid
  rw [List.getD_eq_getElem?_getD, List.getElem?_eq_none (by omega)] at h
  simp at h

end BitSet

namespace IdSet

theorem mem_foldl_insert (s : IdSet) (ids : List Nat) (x : Nat) :
    x ∈ (ids.foldl insert s).members ↔ x ∈ s.members ∨ x ∈ ids := by
  induction ids generalizing s with
  | nil => simp
  | cons id ids ih =>
    rw [List.foldl_cons, ih, insert, mem_insertInto, List.mem_cons, or_comm (a := x = id), or_assoc]

theorem mem_ofList {ids : List Nat} {x : Nat} : x ∈ (ofList ids).members ↔ x ∈ ids := by
  rw [ofList, mem_foldl_insert]
  simp [empty]

theorem contains_ofList (ids : List Nat) (x : Nat) :
    (ofList ids).contains x = decide (x ∈ ids) := by
  rw [contains, List.contains_eq_mem, decide_eq_decide]
  exact mem_ofList

theorem pairwise_foldl_insert {s : IdSet} (hs : s.members.Pairwise (· < ·)) (ids : List Nat) :
    (ids.foldl insert s).members.Pairwise (· < ·) := by
  induction ids generalizing s with
  | nil => exact hs
  | cons id ids ih => exact ih (pairwise_insertInto hs)

theorem pairwise_ofList (ids : List Nat) : (ofList ids).members.Pairwise (· < ·) :=
  pairwise_foldl_insert List.Pairwise.nil ids

/-- Repeated ids count once. -/
theorem size_ofList (ids : List Nat) : (ofList ids).size = ids.toFinset.card := by
  have hnodup : (ofList ids).members.Nodup := (pairwise_ofList ids).imp Nat.ne_of_lt
  rw [size, ← List.toFinset_card_of_nodup hnodup]
  congr 1
  ext x
  rw [List.mem_toFinset, List.mem_toFinset, mem_ofList]

end IdSet

namespace Index

variable {sel sel' : Selector}

theorem candidates_congr (ix : Index) (h : ∀ id, sel.accepts id = sel'.accepts id) :
    ix.candidates (some sel) = ix.candidates (some sel') := by
  have hslot : ix.isCandidate (some sel) = ix.isCandidate (some sel') := by
    funext slot
    unfold isCandidate
    cases ix.store.labelOf? slot with
    | none => rfl
    | some label => simp only [h]
  rw [candidates, hslot, candidates]

theorem scanAll_congr (ix : Index) (h : ∀ id, sel.accepts id = sel'.accepts id) :
    ix.scanAll (some sel) = ix.scanAll (some sel') := by
  funext queries
  unfold scanAll scan
  rw [ix.candidates_congr h]

/-- Selectors that accept the same ids find the same. -/
theorem search_congr (ix : Index) (h : ∀ id, sel.accepts id = sel'.accepts id)
    (queries : List Score) (k : Nat) :
    ix.search queries k (some sel) = ix.search queries k (some sel') := by
  unfold search
  rw [ix.scanAll_congr h]
  rfl

theorem rangeSearch_congr (ix : Index) (h : ∀ id, sel.accepts id = sel'.accepts id)
    (queries : List Score) (radius : Score) :
    ix.rangeSearch queries radius (some sel) = ix.rangeSearch queries radius (some sel') := by
  unfold rangeSearch
  rw [ix.scanAll_congr h]

end Index

namespace Selector

/-- Bits set for a list of ids and the set of these ids accept the ids in the list, and their
complements the others; the set counts each id once. Bytes given as they are accept the ids whose
bits they hold. No search tells the two forms apart. -/
theorem bits_agree_with_set :
    (∀ (ids : List Nat) (id : Nat),
      ((Selector.bits (.ofList ids)).accepts id = true ↔ id ∈ ids) ∧
      ((Selector.set (.ofList ids)).accepts id = true ↔ id ∈ ids) ∧
      ((Selector.complement (.bits (.ofList ids))).accepts id = true ↔ id ∉ ids) ∧
      ((Selector.complement (.set (.ofList ids))).accepts id = true ↔ id ∉ ids) ∧
      (IdSet.ofList ids).size = ids.toFinset.card) ∧
    (∀ (bytes : List UInt8) (id : Nat), (Selector.bits ⟨bytes⟩).accepts id = true ↔
      id < 8 * bytes.length ∧ (bytes.getD (id / 8) 0).toNat.testBit (id % 8) = true) ∧
    ∀ (ids : List Nat) (ix : Index) (queries : List Score) (k : Nat) (radius : Score),
      let bits := Selector.bits (.ofList ids)
      let set := Selector.set (.ofList ids)
      ix.search queries k (some bits) = ix.search queries k (some set) ∧
      ix.rangeSearch queries radius (some bits) = ix.rangeSearch queries radius (some set) ∧
      ix.search queries k (some (.complement bits)) =
        ix.search queries k (some (.complement set)) ∧
      ix.rangeSearch queries radius (some (.complement bits)) =
        ix.rangeSearch queries radius (some (.complement set)) := by
  refine ⟨fun ids id => ?_, fun bytes id => BitSet.contains_iff ⟨bytes⟩ id, ?_⟩
  · simp only [accepts, BitSet.contains_ofList, IdSet.contains_ofList, Bool.not_eq_true',
      decide_eq_true_eq, decide_eq_false_iff_not, IdSet.size_ofList, and_self]
  · intro ids ix queries k radius bits set
    have hsame : ∀ id, bits.accepts id = set.accepts id := by
      intro id
      rw [accepts, accepts, BitSet.contains_ofList, IdSet.contains_ofList]
    have hcomplement : ∀ id, (complement bits).accepts id = (complement set).accepts id := by
      intro id
      exact congrArg (!·) (hsame id)
    exact ⟨ix.search_congr hsame queries k, ix.rangeSearch_congr hsame queries radius,
      ix.search_congr hcomplement queries k, ix.rangeSearch_congr hcomplement queries radius⟩

end Selector
end ExactNeighbors
