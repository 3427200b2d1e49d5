import ExactNeighbors.Packing
import ExactNeighbors.Proofs.Rows

/-! # Packing whole blocks and unpacking them again

A layout says how one code is written to a place of a block and read from it. Nothing more is asked
of it than that a code is found where it was written and that other places read as before. Then
whole blocks are packed and unpacked without loss: a code that was packed is still there after the
codes behind it were packed, as those go to other places.
-/
namespace ExactNeighbors.Packer

variable {p : Packer} {code codes block written buffer held : Bytes} {rows : List Bytes}
variable {offset place : Nat}

/-- What is asked of writing and reading single codes. A failure has no new buffer, so that it
changes nothing. -/
structure Lawful (p : Packer) : Prop where
  codeSize_pos : 0 < p.codeSize
  count_pos : 0 < p.count
  pack_iff : ∀ code offset block, (∃ written, p.pack code offset block = .ok written) ↔
    offset < p.count ∧ code.length = p.codeSize ∧ block.length = p.blockSize
  unpack_iff : ∀ block offset buffer, (∃ code, p.unpack block offset buffer = .ok code) ↔
    offset < p.count ∧ buffer.length = p.codeSize ∧ block.length = p.blockSize
  length_pack : ∀ code offset block written, p.pack code offset block = .ok written →
    written.length = block.length
  length_unpack : ∀ block offset buffer code, p.unpack block offset buffer = .ok code →
    code.length = buffer.length
  read_back : ∀ code offset block written buffer, p.pack code offset block = .ok written →
    buffer.length = p.codeSize → p.unpack written offset buffer = .ok code
  undisturbed : ∀ code offset block written place buffer other,
    p.pack code offset block = .ok written → place ≠ offset →
    p.unpack block place buffer = .ok other → p.unpack written place buffer = .ok other

structure Packed (p : Packer) (offset : Nat) (rows : List Bytes) (block written : Bytes) : Prop where
  length_eq : written.length = block.length
  found : ∀ i (hi : i < rows.length) buffer, buffer.length = p.codeSize →
    p.unpack written (offset + i) buffer = .ok rows[i]
  others : ∀ place buffer other, (∀ i < rows.length, offset + i ≠ place) →
    p.unpack block place buffer = .ok other → p.unpack written place buffer = .ok other

namespace Lawful

/-- A row stays where it is while the rows behind it are packed. -/
theorem packFrom_eq_ok (h : p.Lawful) (hrows : ∀ row ∈ rows, row.length = p.codeSize)
    (hend : offset + rows.length ≤ p.count) (hblock : block.length = p.blockSize) :
    ∃ written, p.packFrom offset rows block = (.ok (), written) ∧
      Packed p offset rows block written := by
  induction rows generalizing offset block with
  | nil =>
    exact ⟨block, rfl, rfl, fun i hi => absurd hi (Nat.not_lt_zero i), fun _ _ _ _ hread => hread⟩
  | cons row rows ih =>
    rw [List.length_cons] at hend
    have hrow := hrows row List.mem_cons_self
    obtain ⟨first, hfirst⟩ := (h.pack_iff row offset block).mpr ⟨by omega, hrow, hblock⟩
    have hlength := h.length_pack _ _ _ _ hfirst
    have hend' : offset + 1 + rows.length ≤ p.count := by omega
    obtain ⟨written, hpack, hpacked⟩ := ih
      (fun other ho => hrows other (List.mem_cons_of_mem row ho)) hend' (hlength.trans hblock)
    refine ⟨written, by rw [packFrom, hfirst]; exact hpack, hpacked.length_eq.trans hlength, ?_, ?_⟩
    · intro i hi buffer hbuffer
      cases i with
      | zero =>
        rw [Nat.add_zero]
        exact hpacked.others offset buffer row (by omega) (h.read_back _ _ _ _ _ hfirst hbuffer)
      | succ i =>
        have hi' : i < rows.length := Nat.lt_of_succ_lt_succ hi
        rw [Nat.add_succ, ← Nat.succ_add]
        exact hpacked.found i hi' buffer hbuffer
    · intro place buffer other hplace hread
      have hfree := hplace 0 (Nat.succ_pos _)
      refine hpacked.others place buffer other ?_
        (h.undisturbed _ _ _ _ _ _ _ hfirst (Ne.symm hfree) hread)
      intro i hi
      have hnext := hplace (i + 1) (Nat.succ_lt_succ hi)
      omega

/-- Packing stops at the first code when the block does not fit. -/
theorem packFrom_eq_error (h : p.Lawful) (hblock : block.length ≠ p.blockSize) (row : Bytes)
    (rows : List Bytes) : ∃ e, p.packFrom offset (row :: rows) block = (.error e, block) := by
  cases hpack : p.pack row offset block with
  | error e => exact ⟨e, by rw [packFrom, hpack]⟩
  | ok written =>
    have hsuits := (h.pack_iff row offset block).mp ⟨written, hpack⟩
    exact absurd hsuits.2.2 hblock

theorem checkFlat_eq_ok (h : p.Lawful) (hcodes : codes.length = p.codeSize * p.count)
    (hsize : codes.length < Word.size) : p.checkFlat codes = .ok () := by
  have hproduct : Word.product? p.codeSize p.count = some codes.length :=
    Word.product?_eq_some_iff.mpr ⟨hcodes.symm, hsize⟩
  have hwidth : p.codeSize ≠ 0 := Nat.ne_of_gt h.codeSize_pos
  simp [checkFlat, checkLength, hproduct, hwidth, bind, Except.bind, pure, Except.pure]

end Lawful

theorem length_of_checkFlat (h : p.checkFlat codes = .ok ()) :
    codes.length = p.codeSize * p.count ∧ codes.length < Word.size := by
  unfold checkFlat checkLength at h
  cases hproduct : Word.product? p.codeSize p.count with
  | none =>
    rw [hproduct] at h
    cases h
  | some size =>
    obtain ⟨rfl, hsize⟩ := Word.product?_eq_some_iff.mp hproduct
    rw [hproduct] at h
    by_cases hlength : codes.length = p.codeSize * p.count
    · exact ⟨hlength, hlength ▸ hsize⟩
    · simp [hlength, bind, Except.bind] at h

/-- A flat buffer has a code for each place. -/
theorem length_split_codes (h : p.Lawful) (hcodes : codes.length = p.codeSize * p.count) :
    (Rows.split p.codeSize codes).length = p.count :=
  Rows.length_split_whole h.codeSize_pos (hcodes.trans (Nat.mul_comm _ _))

theorem flatten_split_codes (h : p.Lawful) (hcodes : codes.length = p.codeSize * p.count) :
    (Rows.split p.codeSize codes).flatten = codes :=
  Rows.flatten_split h.codeSize_pos (hcodes.trans (Nat.mul_comm _ _))

namespace Lawful

theorem packAll_eq_ok (h : p.Lawful) (hcodes : codes.length = p.codeSize * p.count)
    (hsize : codes.length < Word.size) (hblock : block.length = p.blockSize) :
    ∃ written, p.packAll codes block = (.ok (), written) ∧
      Packed p 0 (Rows.split p.codeSize codes) block written := by
  have hrows := length_split_codes h hcodes
  rw [packAll, h.checkFlat_eq_ok hcodes hsize]
  exact h.packFrom_eq_ok (fun _ hrow => Rows.length_of_mem_split hrow) (by omega) hblock

/-- Buffers that do not fit are refused before anything is written. -/
theorem packAll_eq_error (h : p.Lawful) (hunfit : ¬(codes.length = p.codeSize * p.count ∧
    codes.length < Word.size ∧ block.length = p.blockSize)) :
    ∃ e, p.packAll codes block = (.error e, block) := by
  rw [packAll]
  cases hcheck : p.checkFlat codes with
  | error e => exact ⟨e, rfl⟩
  | ok _ =>
    obtain ⟨hcodes, hsize⟩ := length_of_checkFlat hcheck
    have hrows := length_split_codes h hcodes
    have hblock : block.length ≠ p.blockSize := fun hb => hunfit ⟨hcodes, hsize, hb⟩
    cases hsplit : Rows.split p.codeSize codes with
    | nil =>
      have hcount := h.count_pos
      rw [hsplit, List.length_nil] at hrows
      omega
    | cons row rows => exact h.packFrom_eq_error hblock row rows

theorem fits_of_packAll (h : p.Lawful) (hok : (p.packAll codes block).1 = .ok ()) :
    codes.length = p.codeSize * p.count ∧ codes.length < Word.size ∧
      block.length = p.blockSize := by
  refine Decidable.byContradiction fun hunfit => ?_
  obtain ⟨e, herror⟩ := h.packAll_eq_error hunfit
  rw [herror] at hok
  cases hok

end Lawful

theorem unpackFrom_eq_ok {buffers : List Bytes} (hlength : buffers.length = rows.length)
    (hread : ∀ i (hi : i < rows.length), p.unpack block (offset + i) buffers[i] = .ok rows[i]) :
    p.unpackFrom block offset buffers = (.ok (), rows) := by
  induction buffers generalizing offset rows with
  | nil =>
    rw [List.length_eq_zero_iff.mp hlength.symm]
    rfl
  | cons buffer buffers ih =>
    cases rows with
    | nil => cases hlength
    | cons row rows =>
      have hfirst : p.unpack block offset buffer = .ok row := hread 0 (Nat.succ_pos _)
      have hothers : p.unpackFrom block (offset + 1) buffers = (.ok (), rows) := by
        refine ih (Nat.succ.inj hlength) fun i hi => ?_
        have hnext := hread (i + 1) (Nat.succ_lt_succ hi)
        rwa [Nat.add_succ, ← Nat.succ_add] at hnext
      rw [unpackFrom, hfirst]
      simp only [hothers]

namespace Lawful

/-- Unpacking reads the place of each code. -/
theorem unpackAll_eq_ok (h : p.Lawful) (hbuffer : buffer.length = p.codeSize * p.count)
    (hsize : buffer.length < Word.size) (hcodes : codes.length = p.codeSize * p.count)
    (hread : ∀ i < p.count, p.unpack block i (Rows.rowAt p.codeSize i buffer) =
      .ok (Rows.rowAt p.codeSize i codes)) :
    p.unpackAll block buffer = (.ok (), codes) := by
  have hbuffers := length_split_codes h hbuffer
  have hrows := length_split_codes h hcodes
  have hunpack : p.unpackFrom block 0 (Rows.split p.codeSize buffer) =
      (.ok (), Rows.split p.codeSize codes) := by
    refine unpackFrom_eq_ok (hbuffers.trans hrows.symm) fun i hi => ?_
    rw [Nat.zero_add, Rows.getElem_split, Rows.getElem_split]
    exact hread i (hrows ▸ hi)
  rw [unpackAll, h.checkFlat_eq_ok hbuffer hsize]
  simp only [hunpack, flatten_split_codes h hcodes]
  rw [List.drop_eq_nil_of_le (by omega), List.append_nil]

theorem unpackAll_packAll (h : p.Lawful) (hcodes : codes.length = p.codeSize * p.count)
    (hsize : codes.length < Word.size) (hblock : block.length = p.blockSize)
    (hbuffer : buffer.length = p.codeSize * p.count) :
    ∃ written, p.packAll codes block = (.ok (), written) ∧ written.length = p.blockSize ∧
      p.unpackAll written buffer = (.ok (), codes) := by
  obtain ⟨written, hpack, hpacked⟩ := h.packAll_eq_ok hcodes hsize hblock
  refine ⟨written, hpack, hpacked.length_eq.trans hblock, ?_⟩
  refine h.unpackAll_eq_ok hbuffer (hbuffer.trans hcodes.symm ▸ hsize) hcodes fun i hi => ?_
  have hi' : i < (Rows.split p.codeSize codes).length := (length_split_codes h hcodes).symm ▸ hi
  have hrow : (Rows.rowAt p.codeSize i buffer).length = p.codeSize := by
    have hend := Rows.end_le p.codeSize hi
    apply Rows.length_rowAt
    rwa [hbuffer, Nat.mul_comm p.codeSize]
  have hfound := hpacked.found i hi' _ hrow
  rwa [Nat.zero_add, Rows.getElem_split] at hfound

theorem exists_unpackFrom (h : p.Lawful) (hblock : block.length = p.blockSize)
    {buffers : List Bytes} (hbuffers : ∀ buffer ∈ buffers, buffer.length = p.codeSize)
    (hend : offset + buffers.length ≤ p.count) :
    ∃ rows, p.unpackFrom block offset buffers = (.ok (), rows) ∧
      rows.length = buffers.length ∧ ∀ row ∈ rows, row.length = p.codeSize := by
  induction buffers generalizing offset with
  | nil => exact ⟨[], rfl, rfl, fun _ hrow => absurd hrow List.not_mem_nil⟩
  | cons buffer buffers ih =>
    rw [List.length_cons] at hend
    have hbuffer := hbuffers buffer List.mem_cons_self
    obtain ⟨row, hrow⟩ := (h.unpack_iff block offset buffer).mpr ⟨by omega, hbuffer, hblock⟩
    have hend' : offset + 1 + buffers.length ≤ p.count := by omega
    obtain ⟨rows, hrest, hcount, hwidth⟩ := ih
      (fun other ho => hbuffers other (List.mem_cons_of_mem buffer ho)) hend'
    refine ⟨row :: rows, ?_, ?_, ?_⟩
    · rw [unpackFrom, hrow]
      simp only [hrest]
    · rw [List.length_cons, List.length_cons, hcount]
    · intro other hother
      rcases List.mem_cons.mp hother with rfl | hother
      · exact (h.length_unpack _ _ _ _ hrow).trans hbuffer
      · exact hwidth other hother

/-- A block of the right size can be unpacked into any buffer of the right length. -/
theorem exists_unpackAll (h : p.Lawful) (hbuffer : buffer.length = p.codeSize * p.count)
    (hsize : buffer.length < Word.size) (hblock : block.length = p.blockSize) :
    ∃ codes, codes.length = p.codeSize * p.count ∧ p.unpackAll block buffer = (.ok (), codes) := by
  have hbuffers := length_split_codes h hbuffer
  have hwidths : ∀ row ∈ Rows.split p.codeSize buffer, row.length = p.codeSize :=
    fun _ hrow => Rows.length_of_mem_split hrow
  obtain ⟨rows, hunpack, hcount, hwidth⟩ := h.exists_unpackFrom hblock hwidths
    (Nat.le_of_eq ((Nat.zero_add _).trans hbuffers))
  have hcodes : rows.flatten.length = p.codeSize * p.count := by
    rw [Rows.length_flatten hwidth, hcount, hbuffers, Nat.mul_comm]
  refine ⟨rows.flatten, hcodes, ?_⟩
  rw [unpackAll, h.checkFlat_eq_ok hbuffer hsize]
  simp only [hunpack]
  rw [List.drop_eq_nil_of_le (by omega), List.append_nil]

end Lawful

/-- Both layouts check the place and the lengths of the two buffers before they touch anything. -/
theorem guarded_eq_ok_iff {refused : Prop} [Decidable refused] {reason : PackError}
    {first second answer result : Bytes} {m n : Nat} :
    (do
      if refused then throw reason
      checkLength m first
      checkLength n second
      return answer : Except PackError Bytes) = .ok result ↔
    ¬refused ∧ first.length = m ∧ second.length = n ∧ result = answer := by
  by_cases hrefused : refused
  · rw [if_pos hrefused]
    exact iff_of_false (fun h => by cases h) fun h => h.1 hrefused
  · rw [if_neg hrefused]
    unfold checkLength
    by_cases hm : first.length = m
    · by_cases hn : second.length = n
      · rw [if_pos hm, if_pos hn]
        exact ⟨fun h => ⟨hrefused, hm, hn, (Except.ok.inj h).symm⟩, fun h => by rw [h.2.2.2]; rfl⟩
      · rw [if_pos hm, if_neg hn]
        exact iff_of_false (fun h => by cases h) fun h => hn h.2.2.1
    · rw [if_neg hm]
      exact iff_of_false (fun h => by cases h) fun h => hm h.2.1

/-- A layout given by what it puts where: codes are laid into blocks by `put` and taken out by
`get`, behind checks of the place and of the two lengths. -/
structure Layout (p : Packer) (put : Nat → Bytes → Bytes → Bytes) (get : Nat → Bytes → Bytes) :
    Prop where
  pack_iff : ∀ code offset block written, p.pack code offset block = .ok written ↔
    offset < p.count ∧ code.length = p.codeSize ∧ block.length = p.blockSize ∧
      written = put offset code block
  unpack_iff : ∀ block offset buffer code, p.unpack block offset buffer = .ok code ↔
    offset < p.count ∧ buffer.length = p.codeSize ∧ block.length = p.blockSize ∧
      code = get offset block
  length_put : ∀ offset code block, code.length = p.codeSize → block.length = p.blockSize →
    (put offset code block).length = p.blockSize
  length_get : ∀ offset block, block.length = p.blockSize → (get offset block).length = p.codeSize
  get_put : ∀ offset code block, offset < p.count → code.length = p.codeSize →
    block.length = p.blockSize → get offset (put offset code block) = code
  get_put_of_ne : ∀ offset code block place, offset < p.count → place < p.count →
    place ≠ offset → get place (put offset code block) = get place block

theorem Layout.lawful {put : Nat → Bytes → Bytes → Bytes} {get : Nat → Bytes → Bytes}
    (h : Layout p put get) (hsize : 0 < p.codeSize) (hcount : 0 < p.count) : p.Lawful where
  codeSize_pos := hsize
  count_pos := hcount
  pack_iff code offset block := by
    constructor
    · rintro ⟨written, hpack⟩
      obtain ⟨hoffset, hcode, hblock, -⟩ := (h.pack_iff _ _ _ _).mp hpack
      exact ⟨hoffset, hcode, hblock⟩
    · rintro ⟨hoffset, hcode, hblock⟩
      exact ⟨_, (h.pack_iff _ _ _ _).mpr ⟨hoffset, hcode, hblock, rfl⟩⟩
  unpack_iff block offset buffer := by
    constructor
    · rintro ⟨code, hunpack⟩
      obtain ⟨hoffset, hbuffer, hblock, -⟩ := (h.unpack_iff _ _ _ _).mp hunpack
      exact ⟨hoffset, hbuffer, hblock⟩
    · rintro ⟨hoffset, hbuffer, hblock⟩
      exact ⟨_, (h.unpack_iff _ _ _ _).mpr ⟨hoffset, hbuffer, hblock, rfl⟩⟩
  length_pack code offset block written hpack := by
    obtain ⟨-, hcode, hblock, rfl⟩ := (h.pack_iff _ _ _ _).mp hpack
    exact (h.length_put offset code block hcode hblock).trans hblock.symm
  length_unpack block offset buffer code hunpack := by
    obtain ⟨-, hbuffer, hblock, rfl⟩ := (h.unpack_iff _ _ _ _).mp hunpack
    exact (h.length_get offset block hblock).trans hbuffer.symm
  read_back code offset block written buffer hpack hbuffer := by
    obtain ⟨hoffset, hcode, hblock, rfl⟩ := (h.pack_iff _ _ _ _).mp hpack
    have hwritten := h.length_put offset code block hcode hblock
    have hback := h.get_put offset code block hoffset hcode hblock
    exact (h.unpack_iff _ _ _ _).mpr ⟨hoffset, hbuffer, hwritten, hback.symm⟩
  undisturbed code offset block written place buffer other hpack hplace hread := by
    obtain ⟨hoffset, hcode, hblock, rfl⟩ := (h.pack_iff _ _ _ _).mp hpack
    obtain ⟨hin, hbuffer, -, rfl⟩ := (h.unpack_iff _ _ _ _).mp hread
    have hwritten := h.length_put offset code block hcode hblock
    have hsame := h.get_put_of_ne offset code block place hoffset hin hplace
    exact (h.unpack_iff _ _ _ _).mpr ⟨hin, hbuffer, hwritten, hsame.symm⟩

/-- With one code per block there is no other place to disturb. -/
theorem lawful_flat {codeSize : Nat} (h : 0 < codeSize) : (flat codeSize).Lawful := by
  have hplace : ∀ offset, offset < (flat codeSize).count ↔ ¬offset ≠ 0 := by simp [flat]
  have hlayout : Layout (flat codeSize) (fun _ code _ => code) (fun _ block => block) := {
    pack_iff := fun code offset block written => by
      rw [hplace]
      exact guarded_eq_ok_iff
    unpack_iff := fun block offset buffer code => by
      rw [hplace, and_left_comm (a := buffer.length = _)]
      exact guarded_eq_ok_iff
    length_put := fun _ _ _ hcode _ => hcode
    length_get := fun _ _ hblock => hblock
    get_put := fun _ _ _ _ _ _ => rfl
    get_put_of_ne := fun offset _ _ place hoffset hplace hne =>
      absurd ((Nat.lt_one_iff.mp hplace).trans (Nat.lt_one_iff.mp hoffset).symm) hne }
  exact hlayout.lawful h Nat.one_pos

section Interleaved

variable {codeSize count n : Nat}

/-- The bytes of `code` laid into a block, `count` bytes apart, from byte row `n` on. -/
def scatter (count offset n : Nat) (code block : Bytes) : Bytes :=
  (code.zipIdx n).foldl (fun block (b, i) => block.set (i * count + offset) b) block

/-- Every `count`-th byte of a block. -/
def gather (codeSize count offset : Nat) (block : Bytes) : Bytes :=
  (List.range codeSize).map fun i => block.getD (i * count + offset) 0

@[simp] theorem length_gather : (gather codeSize count offset block).length = codeSize := by
  simp [gather]

theorem scatter_cons (b : UInt8) (code block : Bytes) :
    scatter count offset n (b :: code) block =
      scatter count offset (n + 1) code (block.set (n * count + offset) b) := rfl

@[simp] theorem length_scatter : (scatter count offset n code block).length = block.length := by
  induction code generalizing n block with
  | nil => rfl
  | cons b code ih => rw [scatter_cons, ih, List.length_set]

theorem getElem?_scatter_of_ne {k : Nat} (h : ∀ i, n ≤ i → i * count + offset ≠ k) :
    (scatter count offset n code block)[k]? = block[k]? := by
  induction code generalizing n block with
  | nil => rfl
  | cons b code ih =>
    rw [scatter_cons, ih fun i hi => h i (Nat.le_of_succ_le hi),
      List.getElem?_set_ne (h n (Nat.le_refl n))]

theorem getElem?_scatter {i : Nat} (hcount : 0 < count) (hi : i < code.length)
    (hend : (i + n) * count + offset < block.length) :
    (scatter count offset n code block)[(i + n) * count + offset]? = code[i]? := by
  induction code generalizing n i block with
  | nil => cases hi
  | cons b code ih =>
    rw [scatter_cons]
    cases i with
    | zero =>
      rw [Nat.zero_add] at hend ⊢
      rw [getElem?_scatter_of_ne, List.getElem?_set_self hend]
      · rfl
      · intro j hj
        have hlt : n * count < j * count := Nat.mul_lt_mul_of_pos_right hj hcount
        omega
    | succ i =>
      rw [Nat.succ_add_eq_add_succ] at hend ⊢
      exact ih (Nat.lt_of_succ_lt_succ hi) (by rwa [List.length_set])

/-- The byte rows of a block have no byte of another place. -/
theorem place_ne {place i j : Nat} (hoffset : offset < count) (hplace : place < count)
    (hne : place ≠ offset) : i * count + offset ≠ j * count + place := by
  intro heq
  have hmod := congrArg (· % count) heq
  simp only [Nat.mul_add_mod', Nat.mod_eq_of_lt hoffset, Nat.mod_eq_of_lt hplace] at hmod
  exact hne hmod.symm

theorem gather_scatter (hoffset : offset < count) (hcode : code.length = codeSize)
    (hblock : block.length = codeSize * count) :
    gather codeSize count offset (scatter count offset 0 code block) = code := by
  refine List.ext_getElem (length_gather.trans hcode.symm) fun i _ hi => ?_
  have hend := Rows.end_le count (hcode ▸ hi)
  have hfound : (scatter count offset 0 code block)[i * count + offset]? = code[i]? :=
    getElem?_scatter (by omega) hi (by rw [Nat.add_zero]; omega)
  rw [List.getElem?_eq_getElem hi] at hfound
  simp only [gather, List.getElem_map, List.getElem_range, List.getD_eq_getElem?_getD, hfound,
    Option.getD_some]

theorem gather_scatter_of_ne {place : Nat} (hoffset : offset < count) (hplace : place < count)
    (hne : place ≠ offset) :
    gather codeSize count place (scatter count offset n code block) =
      gather codeSize count place block := by
  refine List.map_congr_left fun i _ => ?_
  rw [List.getD_eq_getElem?_getD, List.getD_eq_getElem?_getD,
    getElem?_scatter_of_ne fun j _ => place_ne hoffset hplace hne]

theorem interleaved_geometry (h : interleaved codeSize count = .ok p) :
    p.codeSize = codeSize ∧ p.count = count ∧ p.blockSize = codeSize * count := by
  unfold interleaved at h
  split at h
  · cases h
  · obtain ⟨rfl, -⟩ := Word.product?_eq_some_iff.mp ‹_›
    obtain rfl := Except.ok.inj h
    exact ⟨rfl, rfl, rfl⟩

theorem layout_interleaved (h : interleaved codeSize count = .ok p) :
    Layout p (fun offset code block => scatter count offset 0 code block)
      (fun offset block => gather codeSize count offset block) := by
  obtain ⟨hsize, hcount, hblocks⟩ := interleaved_geometry h
  unfold interleaved at h
  split at h
  · cases h
  · obtain rfl := Except.ok.inj h
    exact {
      pack_iff := fun code offset block written => by
        rw [← Nat.not_le]
        exact guarded_eq_ok_iff
      unpack_iff := fun block offset buffer code => by
        rw [← Nat.not_le]
        exact guarded_eq_ok_iff
      length_put := fun _ _ _ _ hblock => length_scatter.trans hblock
      length_get := fun _ _ _ => length_gather
      get_put := fun _ _ _ hoffset hcode hblock =>
        gather_scatter hoffset hcode (hblock.trans hblocks)
      get_put_of_ne := fun _ _ _ _ hoffset hplace hne =>
        gather_scatter_of_ne hoffset hplace hne }

theorem lawful_interleaved (hsize : 0 < codeSize) (hcount : 0 < count)
    (h : interleaved codeSize count = .ok p) : p.Lawful := by
  obtain ⟨hcodeSize, hplaces, -⟩ := interleaved_geometry h
  exact (layout_interleaved h).lawful (hcodeSize ▸ hsize) (hplaces ▸ hcount)

end Interleaved

structure Lossless (p : Packer) : Prop where
  succeeds_iff : ∀ codes block, codes.length < Word.size →
    ((p.packAll codes block).1 = .ok () ↔
      codes.length = p.codeSize * p.count ∧ block.length = p.blockSize)
  refused : ∀ codes block e, (p.packAll codes block).1 = .error e → (p.packAll codes block).2 = block
  unpack_pack : ∀ codes block written buffer, p.packAll codes block = (.ok (), written) →
    buffer.length = p.codeSize * p.count →
    written.length = block.length ∧ p.unpackAll written buffer = (.ok (), codes)
  /-- A block that no other one reads as is restored, whatever `held` holds. -/
  pack_unpack : ∀ block codes held, block.length = p.blockSize →
    codes.length = p.codeSize * p.count → codes.length < Word.size → held.length = p.blockSize →
    (∀ other : Bytes, other.length = p.blockSize →
      p.unpackAll other codes = p.unpackAll block codes → other = block) →
    (p.unpackAll block codes).1 = .ok () ∧
      p.packAll (p.unpackAll block codes).2 held = (.ok (), block)

theorem Lawful.lossless (h : p.Lawful) : p.Lossless where
  succeeds_iff codes block hsize := by
    constructor
    · intro hok
      obtain ⟨hcodes, -, hblock⟩ := h.fits_of_packAll hok
      exact ⟨hcodes, hblock⟩
    · rintro ⟨hcodes, hblock⟩
      obtain ⟨written, hpack, -⟩ := h.packAll_eq_ok hcodes hsize hblock
      rw [hpack]
  refused codes block e herror := by
    by_cases hfit : codes.length = p.codeSize * p.count ∧ codes.length < Word.size ∧
        block.length = p.blockSize
    · obtain ⟨written, hpack, -⟩ := h.packAll_eq_ok hfit.1 hfit.2.1 hfit.2.2
      rw [hpack] at herror
      cases herror
    · obtain ⟨_, hpack⟩ := h.packAll_eq_error hfit
      rw [hpack]
  unpack_pack codes block written buffer hpack hbuffer := by
    obtain ⟨hcodes, hsize, hblock⟩ := h.fits_of_packAll (congrArg Prod.fst hpack)
    obtain ⟨packed, heq, hlength, hback⟩ := h.unpackAll_packAll hcodes hsize hblock hbuffer
    obtain rfl : packed = written := congrArg Prod.snd (heq.symm.trans hpack)
    exact ⟨hlength.trans hblock.symm, hback⟩
  pack_unpack block codes held hblock hcodes hsize hheld hknown := by
    obtain ⟨read, hread, hunpack⟩ := h.exists_unpackAll hcodes hsize hblock
    obtain ⟨written, hpack, hwritten, hback⟩ := h.unpackAll_packAll hread
      (hread.trans hcodes.symm ▸ hsize) hheld hcodes
    have hsame := hknown written hwritten (hback.trans hunpack.symm)
    rw [hunpack, hpack, hsame]
    exact ⟨rfl, rfl⟩

/-- No layout loses a code in whole blocks; the flat layout is one of those meant. -/
theorem lossless_of_lawful : (∀ p : Packer, p.Lawful → p.Lossless) ∧
    ∀ codeSize, 1 ≤ codeSize → (flat codeSize).Lawful :=
  ⟨fun _ h => h.lossless, fun _ h => lawful_flat h⟩

/-- Two codes of two bytes each, packed and unpacked, and a block restored. -/
theorem lossless_interleaved : ∃ p, interleaved 2 2 = .ok p ∧ p.Lawful ∧
    p.packAll [1, 2, 3, 4] [7, 7, 7, 7] = (.ok (), [1, 3, 2, 4]) ∧
    p.unpackAll [1, 3, 2, 4] [9, 9, 9, 9] = (.ok (), [1, 2, 3, 4]) ∧
    (p.packAll (p.unpackAll [5, 6, 7, 8] [0, 0, 0, 0]).2 [7, 7, 7, 7]).2 = [5, 6, 7, 8] := by
  have hlawful := lawful_interleaved Nat.two_pos Nat.two_pos rfl
  have hlossless := lossless_of_lawful.1 _ hlawful
  refine ⟨_, rfl, hlawful, rfl, (hlossless.unpack_pack _ [7, 7, 7, 7] _ _ rfl rfl).2, ?restored⟩
  have hrestored := (hlossless.pack_unpack [5, 6, 7, 8] [0, 0, 0, 0] [7, 7, 7, 7] rfl rfl
    (by decide) rfl ?known).2
  case known =>
    intro other hlength hsame
    match other, hlength with
    | [a, b, c, d], _ =>
      have hread : [a, c, b, d] = [5, 7, 6, 8] := congrArg Prod.snd hsame
      cases hread
      rfl
  case restored => exact congrArg Prod.snd hrestored

end ExactNeighbors.Packer
