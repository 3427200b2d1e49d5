import ExactNeighbors.Proofs.Store.Read
import ExactNeighbors.Proofs.Store.Room

/-! # Filling an empty store

Without dead slots an insertion appends. So vectors that are inserted into an empty store come to
stand in slots `0`, `1`, ... in the same order. For vectors that are read from some slots of another
store there is always room, because there was room for them in that store.
-/
namespace ExactNeighbors.Store

variable {α : Type} {s t : Store α} {row : List Single} {rows : List (List Single)}
variable {slots : List Nat}

structure Appended (s : Store α) (rows : List (List Single)) (t : Store α) : Prop where
  codec_eq : t.codec = s.codec
  metric_eq : t.metric = s.metric
  free_eq : t.free.members = []
  labels_eq : t.labels = s.labels ++ List.range' s.nextLabel rows.length
  codes_eq : t.codes = s.codes ++ rows.flatMap s.codec.encode

theorem placeAll_append (hfree : s.free.members = []) (rows : List (List Single)) :
    ∃ t, s.placeAll rows = .ok (List.range' s.nextLabel rows.length, t) ∧ Appended s rows t := by
  induction rows generalizing s with
  | nil => exact ⟨s, rfl, ⟨rfl, rfl, hfree, by simp, by simp⟩⟩
  | cons row rows ih =>
    have hplace : s.place row = .ok (s.append (s.codec.encode row)) := by
      simp only [place, IdSet.popLeast?, hfree]
    have hfree' : (s.append (s.codec.encode row)).free.members = [] := hfree
    obtain ⟨t, hall, ht⟩ := ih hfree'
    have hnext : (s.append (s.codec.encode row)).nextLabel = s.nextLabel + 1 := rfl
    refine ⟨t, ?_, ht.codec_eq, ht.metric_eq, ht.free_eq, ?_, ?_⟩
    · rw [hnext] at hall
      simp only [placeAll, hplace, hall, bind, Except.bind, List.length_cons, List.range'_succ]
      rfl
    · rw [ht.labels_eq, hnext, List.length_cons, List.range'_succ]
      exact List.append_assoc _ [s.nextLabel] _
    · rw [ht.codes_eq, List.flatMap_cons]
      exact List.append_assoc _ _ _

structure Filled (rows : List (List Single)) (t : Store Single) : Prop where
  coherent : Coherent t
  labels_eq : t.labels = List.range rows.length
  nextLabel_eq : t.nextLabel = rows.length
  isDeleted_eq : ∀ slot, t.isDeleted slot = false
  codes_eq : (List.range rows.length).map t.codeOf = rows

def empty (memory : Memory) (dimension : Nat) (metric : Metric) : Store Single :=
  { memory, codec := Codec.flat dimension, metric }

section Fill

variable {s t : Store Single} {memory : Memory} {dimension : Nat} {metric : Metric}

theorem addFault?_rows (hd : 0 < dimension)
    (hroom : (empty memory dimension metric).roomFault? rows.length = none)
    (hlength : rows.flatten.length = rows.length * dimension) :
    (empty memory dimension metric).addFault? rows.flatten = none := by
  have hdimension : (empty memory dimension metric).dimension = dimension := rfl
  have htrained : (empty memory dimension metric).codec.isTrained = true := rfl
  rw [addFault?, hdimension, hlength, Nat.mul_mod_left, Nat.mul_div_cancel _ hd, htrained, hroom]
  simp

/-- Rows that there is room for are found in an empty store in their order. -/
theorem add_rows (hd : 0 < dimension) (hrows : ∀ row ∈ rows, row.length = dimension)
    (hroom : (empty memory dimension metric).roomFault? rows.length = none) :
    ∃ t, (empty memory dimension metric).add rows.flatten = .ok (List.range rows.length, t) ∧
      t.codec = Codec.flat dimension ∧ t.metric = metric ∧ Filled rows t := by
  have h₀ : Coherent (empty memory dimension metric) := coherent_of_empty hd hd
  have hsplit := Rows.split_flatten hd hrows
  have hflat := Rows.length_flatten hrows
  obtain ⟨t, hall, ht⟩ := placeAll_append (s := empty memory dimension metric) rfl rows
  have hadd : (empty memory dimension metric).add rows.flatten = .ok (List.range rows.length, t) := by
    rw [add_eq, addFault?_rows hd hroom hflat]
    change (empty memory dimension metric).placeAll (Rows.split dimension _) = _
    rw [hsplit, hall, List.range_eq_range']
    rfl
  obtain ⟨-, hp⟩ := placedAll_of_add h₀ hadd
  have hcoherent := hp.coherent h₀
  have hcodes : t.codes = rows.flatten := by
    rw [ht.codes_eq]
    exact List.flatMap_id
  refine ⟨t, hadd, ht.codec_eq, ht.metric_eq, hcoherent, ?_, ?_, ?_, ?_⟩
  · rw [ht.labels_eq, List.range_eq_range']
    rfl
  · have hcount : (Rows.split (empty memory dimension metric).dimension rows.flatten).length =
        rows.length := congrArg List.length hsplit
    rw [hp.nextLabel_eq, hcount]
    exact Nat.zero_add _
  · intro slot
    rw [Bool.eq_false_iff]
    intro hdead
    have hfree := (hcoherent.mem_free_iff slot).mpr hdead
    rw [ht.free_eq] at hfree
    cases hfree
  · have hwidth : t.codec.codeLength = dimension := congrArg Codec.codeLength ht.codec_eq
    have hcount : t.codes.length / dimension = rows.length := by
      rw [hcodes, hflat, Nat.mul_div_cancel _ hd]
    calc (List.range rows.length).map t.codeOf
        = Rows.split dimension t.codes := by
          rw [Rows.split_eq, hcount, ← hwidth]
          rfl
      _ = rows := by rw [hcodes, hsplit]

theorem mapM_reconstructSlot (h : Coherent s) (hf : Fits s)
    (hcodec : s.codec = Codec.flat s.dimension)
    (hslots : ∀ slot ∈ slots, slot < s.physical) :
    slots.mapM s.reconstructSlot = .ok (slots.map s.codeOf) := by
  apply Rows.mapM_eq_pure_map
  intro slot hslot
  exact hf.reconstructSlot_eq h hcodec (hslots slot hslot)

theorem roomFault?_copies (h : Coherent s) (hf : Fits s) (hcodec : s.codec = Codec.flat s.dimension)
    (hlength : slots.length ≤ s.physical) :
    (empty s.memory s.dimension s.metric).roomFault? slots.length = none := by
  have hwidth : s.codec.width = 4 := by rw [hcodec]; rfl
  have hcode : s.codec.codeLength = s.dimension := by rw [hcodec]; rfl
  have hle : slots.length * s.dimension ≤ s.codes.length := by
    rw [h.codes_length, hcode]
    exact Nat.mul_le_mul_right _ hlength
  have hholds : s.memory.Holds (s.codes.length * 4) s.physical := hwidth ▸ hf
  apply roomFault?_eq_none_iff.mpr
  change slots.length * s.dimension < Word.size ∧
    s.memory.Holds ((0 + slots.length * s.dimension) * 4) (0 + slots.length)
  rw [Nat.zero_add, Nat.zero_add]
  exact ⟨hle.trans_lt (hf.codes_lt_size (hwidth ▸ Nat.succ_pos 3)),
    hholds.mono (Nat.mul_le_mul_right 4 hle) hlength⟩

/-- The codes of some slots fit into an empty store, and are found there in the same order. -/
theorem add_copies (h : Coherent s) (hf : Fits s) (hcodec : s.codec = Codec.flat s.dimension)
    (hslots : ∀ slot ∈ slots, slot < s.physical) (hlength : slots.length ≤ s.physical) :
    ∃ t, s.reset.add (slots.map s.codeOf).flatten = .ok (List.range slots.length, t) ∧
      t.codec = s.codec ∧ t.metric = s.metric ∧ Filled (slots.map s.codeOf) t := by
  have hreset : s.reset = empty s.memory s.dimension s.metric := by rw [reset, hcodec]; rfl
  have hrows : ∀ row ∈ slots.map s.codeOf, row.length = s.dimension := by
    intro row hrow
    obtain ⟨slot, hslot, rfl⟩ := List.mem_map.mp hrow
    rw [h.length_codeOf (hslots slot hslot), hcodec]
    rfl
  have hcount : (slots.map s.codeOf).length = slots.length := List.length_map _
  have hroom := roomFault?_copies h hf hcodec hlength
  rw [← hcount] at hroom ⊢
  rw [hreset, hcodec]
  exact add_rows h.dimension_pos hrows hroom

end Fill
end ExactNeighbors.Store
