import ExactNeighbors.Proofs.Index.Visible
import ExactNeighbors.Proofs.Store.Packed
import ExactNeighbors.Store.Room

/-! # Sizes of wide vectors

Any dimension of 64 bits is accepted, as long as it is positive. The bytes of one vector are four
times as many, and nothing asks beforehand whether that product is a size. Below the dimension
`2 ^ 62` it is. From there on an index has no code size, and whatever starts from the code size
fails, even where nothing is to be packed. A reservation multiplies as well, and refuses.
-/
namespace ExactNeighbors

namespace Store

variable {α : Type} {s : Store α}

theorem packCodes_zero (h : Coherent s) (hf : Fits s) (hwidth : 0 < s.codec.width)
    (hsize : s.codec.codeLength * s.codec.width < Word.size) (start : Nat) :
    s.packCodes start 0 = .ok [] := by
  rw [packCodes_eq h hf hwidth hsize, codesRange, if_pos rfl, Except.bind, Nat.zero_mul,
    if_pos (Nat.zero_le _)]
  rfl

theorem reserve_eq_uncountable_iff (s : Store α) (additional : Nat) :
    s.reserve additional = .error (.capacityExhausted additional .uncountable) ↔
      Word.size ≤ additional * s.codec.codeLength := by
  have hfault : s.roomFault? additional = some .uncountable ↔
      Word.size ≤ additional * s.codec.codeLength := by
    unfold roomFault?
    dsimp only
    split <;> rename_i helements
    · exact iff_of_true rfl helements
    · refine iff_of_false ?_ helements
      split
      · rename_i hfault
        exact fun h => Memory.fault?_ne_uncountable _ _ (hfault.trans h)
      · exact Memory.fault?_ne_uncountable _ _
  rw [← hfault, reserve]
  cases s.roomFault? additional <;> simp

/-- No memory is granted for a code whose bytes are not counted by a register. -/
theorem Fits.physical_eq_zero (hf : Fits s) (h : Coherent s)
    (hsize : Word.size ≤ s.codec.codeLength * s.codec.width) : s.physical = 0 := by
  refine Nat.eq_zero_of_not_pos fun hpos => ?_
  have hone := hf.bytes_le h (show 0 + 1 ≤ s.physical by omega)
  have hlongest : Word.longestBuffer < Word.size := by decide
  omega

end Store

namespace Index

variable {ix : Index}

theorem new_iff {memory : Memory} {dimension : Nat} {metric : Metric} :
    (∃ ix, Index.new memory dimension metric = .ok ix) ↔ 0 < dimension := by
  constructor
  · rintro ⟨ix, hnew⟩
    obtain ⟨s, hs, -⟩ := exists_store_of_new hnew
    exact (Store.eq_of_new hs).2.1
  · intro hpos
    have hs : Store.new memory (Codec.flat dimension) metric = .ok _ :=
      Store.new_eq memory metric hpos hpos
    exact ⟨_, by rw [Index.new, hs]; rfl⟩

structure Sized (ix : Index) : Prop where
  codeSize_eq : ix.store.codeSize = .ok (4 * ix.dimension)
  stats_codeSize : ix.stats.map Stats.codeSize = .ok (4 * ix.dimension)
  packer_codeSize : ix.store.packer.map Packer.codeSize = .ok (4 * ix.dimension)
  packer_blockSize : ix.store.packer.map Packer.blockSize = .ok (4 * ix.dimension)
  packCodes_zero : ∀ start, ix.store.packCodes start 0 = .ok []

/-- The index holds nothing and gives no size, and not even an empty range is packed. -/
structure Unsized (ix : Index) : Prop where
  physical_eq : ix.store.physical = 0
  codeSize_eq : ix.store.codeSize = .error .overrun
  stats_eq : ix.stats = .error .overrun
  packer_eq : ix.store.packer = .error .overrun
  packCodes_eq : ∀ start count, ix.store.packCodes start count = .error .overrun

theorem Coherent.codeSize_product (h : ix.Coherent) :
    ix.store.codec.codeLength * ix.store.codec.width = 4 * ix.dimension := by
  rw [h.codec_eq]
  exact Nat.mul_comm _ _

theorem Coherent.sized (h : ix.Coherent) (hsize : 4 * ix.dimension < Word.size) : ix.Sized := by
  have hproduct := h.codeSize_product
  rw [← hproduct] at hsize
  have hwidth : 0 < ix.store.codec.width := by
    rw [h.codec_eq]
    exact Nat.succ_pos 3
  have hcodeSize := Store.codeSize_eq hsize
  have hpacker := Store.packer_eq hsize
  constructor
  case codeSize_eq => rw [hcodeSize, hproduct]
  case stats_codeSize =>
    rw [stats, hcodeSize, hproduct]
    rfl
  case packer_codeSize =>
    rw [hpacker, hproduct]
    rfl
  case packer_blockSize =>
    rw [hpacker, hproduct]
    rfl
  case packCodes_zero => exact Store.packCodes_zero h.store h.fits hwidth hsize

theorem Reachable.unsized (h : ix.Reachable) (hsize : Word.size ≤ 4 * ix.dimension) :
    ix.Unsized := by
  rw [← h.coherent.codeSize_product] at hsize
  have hcodeSize := Store.codeSize_eq_error hsize
  constructor
  case physical_eq => exact h.coherent.fits.physical_eq_zero h.coherent.store hsize
  case codeSize_eq => exact hcodeSize
  case stats_eq =>
    rw [stats, hcodeSize]
    rfl
  case packer_eq => exact Store.packer_eq_error hsize
  case packCodes_eq => exact Store.packCodes_eq_error hsize

structure RefusesUncountable (ix : Index) : Prop where
  reserve_iff : ∀ additional,
    ix.store.reserve additional = .error (.capacityExhausted additional .uncountable) ↔
      Word.size ≤ additional * ix.dimension
  /-- The room that is reserved already makes no difference. -/
  roomy_reserve : ∀ capacity additional, Word.size ≤ additional * ix.dimension →
    (RoomyStore.mk ix.store capacity).reserve additional =
      .error (.capacityExhausted additional .uncountable)
  run_reserve : ∀ additional, ix.run [.reserve additional] = ix

theorem Coherent.refusesUncountable (h : ix.Coherent) : ix.RefusesUncountable := by
  have hcodeLength : ix.store.codec.codeLength = ix.dimension := by
    rw [h.codec_eq]
    rfl
  have hreserve := Store.reserve_eq_uncountable_iff ix.store
  rw [hcodeLength] at hreserve
  constructor
  case reserve_iff => exact hreserve
  case roomy_reserve =>
    intro capacity additional helements
    rw [RoomyStore.reserve, (hreserve additional).mpr helements]
    rfl
  case run_reserve => exact fun _ => rfl

theorem Coherent.dimension_run (h : ix.Coherent) (calls : List Store.Call) :
    (ix.run calls).dimension = ix.dimension :=
  congrArg Codec.dimension (h.store.run calls).2

/-- Every positive dimension is accepted, and a run keeps it. Whatever an index went
through, it has the exact sizes when four times its dimension is a size itself, and none at all
otherwise. In either case all its bytes are as many as its slots say, and more elements than a
register counts are not reserved. -/
theorem sizes_exact_or_absent (memory : Memory) (dimension : Nat) (metric : Metric) :
    ((∃ ix₀, Index.new memory dimension metric = .ok ix₀) ↔ 0 < dimension) ∧
    (∀ ix₀ calls, Index.new memory dimension metric = .ok ix₀ →
      (ix₀.run calls).Reachable ∧ (ix₀.run calls).dimension = dimension) ∧
    ∀ ix : Index, ix.Reachable → ix.dimension = dimension →
      (4 * dimension < Word.size → ix.Sized) ∧
      (Word.size ≤ 4 * dimension → ix.Unsized) ∧
      ix.store.allBytes.length = ix.store.physical * (4 * dimension) ∧
      ix.RefusesUncountable := by
  refine ⟨new_iff, ?kept, ?sizes⟩
  case kept =>
    intro ix₀ calls hnew
    refine ⟨(Reachable.new hnew).run calls, ?_⟩
    rw [(coherent_of_new hnew).dimension_run calls]
    obtain ⟨s, hs, rfl⟩ := exists_store_of_new hnew
    rw [(Store.eq_of_new hs).1]
    rfl
  case sizes =>
    rintro ix h rfl
    have hbytes := h.coherent.store.length_allBytes
    rw [h.coherent.codeSize_product] at hbytes
    exact ⟨h.coherent.sized, h.unsized, hbytes, h.coherent.refusesUncountable⟩

/-- The least dimension that is accepted without a code size. Nothing was stored, and packing
nothing fails. -/
theorem no_code_size_from_two_pow_62 :
    ∃ ix, Index.new .host 0x4000000000000000 .l2 = .ok ix ∧ ix.store.codeSize = .error .overrun ∧
      ix.stats = .error .overrun ∧ ix.store.packer = .error .overrun ∧
      ix.store.packCodes 0 0 = .error .overrun :=
  ⟨_, rfl, rfl, rfl, rfl, rfl⟩

/-- Two components, with a slot reused, and as many components as leave no code size. -/
theorem sizes_exact_or_absent_wide :
    let calls : List Store.Call := [.add [⟨1⟩, ⟨2⟩, ⟨3⟩, ⟨4⟩], .delete [0], .add [⟨5⟩, ⟨6⟩],
      .reserve 0x8000000000000000]
    (∃ ix₀, Index.new .host 2 .l2 = .ok ix₀ ∧ (ix₀.run calls).Reachable ∧ 4 * 2 < Word.size ∧
      (ix₀.run calls).store.codeSize = .ok 8 ∧
      (ix₀.run calls).store.packCodes 7 0 = .ok [] ∧
      (ix₀.run calls).store.allBytes.length = 2 * 8 ∧
      (ix₀.run calls).store.reserve 0x8000000000000000 =
        .error (.capacityExhausted 0x8000000000000000 .uncountable)) ∧
    ∃ ix₀, Index.new .host 0x4000000000000000 .l2 = .ok ix₀ ∧ (ix₀.run calls).Reachable ∧
      Word.size ≤ 4 * 0x4000000000000000 ∧ (ix₀.run calls).store.physical = 0 ∧
      (ix₀.run calls).stats = .error .overrun ∧
      (ix₀.run calls).store.reserve 4 = .error (.capacityExhausted 4 .uncountable) := by
  intro calls
  constructor
  · obtain ⟨hnew, hkept, hsizes⟩ := sizes_exact_or_absent .host 2 .l2
    obtain ⟨ix₀, hix⟩ := hnew.mpr (by decide)
    obtain ⟨hreachable, hdimension⟩ := hkept ix₀ calls hix
    obtain ⟨hsized, -, hbytes, hrefuses⟩ := hsizes _ hreachable hdimension
    have hlt : 4 * 2 < Word.size := by decide
    have hphysical : (ix₀.run calls).store.physical = 2 := by
      cases hix
      decide +kernel
    rw [hphysical] at hbytes
    have hcodeSize := (hsized hlt).codeSize_eq
    rw [hdimension] at hcodeSize
    refine ⟨ix₀, hix, hreachable, hlt, hcodeSize, (hsized hlt).packCodes_zero 7, hbytes, ?_⟩
    exact (hrefuses.reserve_iff _).mpr (by rw [hdimension]; decide)
  · obtain ⟨hnew, hkept, hsizes⟩ := sizes_exact_or_absent .host 0x4000000000000000 .l2
    obtain ⟨ix₀, hix⟩ := hnew.mpr (by decide)
    obtain ⟨hreachable, hdimension⟩ := hkept ix₀ calls hix
    obtain ⟨-, hunsized, -, hrefuses⟩ := hsizes _ hreachable hdimension
    have hle : Word.size ≤ 4 * 0x4000000000000000 := by decide
    refine ⟨ix₀, hix, hreachable, hle, (hunsized hle).physical_eq, (hunsized hle).stats_eq, ?_⟩
    exact (hrefuses.reserve_iff _).mpr (by rw [hdimension]; decide)

end Index
end ExactNeighbors
