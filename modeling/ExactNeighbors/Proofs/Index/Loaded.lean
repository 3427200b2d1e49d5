import ExactNeighbors.Proofs.Index.Hits
import ExactNeighbors.Proofs.Store.Rebuild

/-! # Indexes over numbered rows

A fresh index hands out the numbers of the rows that it is filled with, and deletions do not move
rows. So what a search finds can be said in terms of the rows: those that are left, in ascending
order, are scored, sorted and cut off.
-/
namespace ExactNeighbors.Index

variable {ix jx : Index} {rows queries : List (List Single)} {deleted : List Nat} {q : List Score}
variable {k : Nat}

/-- The index holds the rows in slots `0`, `1`, ... under these numbers, and some are deleted. -/
structure Loaded (ix : Index) (rows : List (List Single)) (deleted : List Nat) : Prop where
  coherent : ix.Coherent
  labels_eq : ix.store.labels = List.range rows.length
  nextLabel_eq : ix.store.nextLabel = rows.length
  isDeleted_iff : ∀ slot, ix.store.isDeleted slot = true ↔ slot ∈ deleted
  codes_eq : (List.range rows.length).map ix.store.codeOf = rows

def keptRows (rows : List (List Single)) (deleted : List Nat) (exclude : Bool) : List Nat :=
  (List.range rows.length).filter fun i => !(exclude && deleted.contains i)

def scoredRows (m : Metric) (q : List Score) (rows : List (List Single)) (kept : List Nat) :
    List Scored :=
  (m.scores q (kept.map fun i => (rows.getD i []).map Single.value)).zip kept

def rowHits (found : List Scored) : List Hit := found.map fun x => ⟨x.2, x.1⟩

def nearestRows (m : Metric) (k : Nat) (q : List Score) (rows : List (List Single))
    (kept : List Nat) : List Hit :=
  rowHits ((((scoredRows m q rows kept).filter fun x => !x.1.isNaN).mergeSort (inOrder m)).take k)

/-- The rows that are kept and lie strictly on the good side of a radius, best first. -/
def rowsWithin (m : Metric) (radius : Score) (q : List Score) (rows : List (List Single))
    (kept : List Nat) : List Hit :=
  rowHits (((scoredRows m q rows kept).filter fun x => within m radius x.1).mergeSort (inOrder m))

theorem loaded_of_filled (h : ix.Coherent) (ht : Store.Filled rows ix.store) :
    Loaded ix rows [] where
  coherent := h
  labels_eq := ht.labels_eq
  nextLabel_eq := ht.nextLabel_eq
  isDeleted_iff slot := by simp [ht.isDeleted_eq slot]
  codes_eq := ht.codes_eq

namespace Loaded

theorem physical_eq (l : Loaded ix rows deleted) : ix.store.physical = rows.length := by
  rw [Store.physical, l.labels_eq, List.length_range]

theorem labelOf?_eq (l : Loaded ix rows deleted) {slot : Nat} (hslot : slot < rows.length) :
    ix.store.labelOf? slot = some slot := by
  rw [Store.labelOf?, l.labels_eq, List.getElem?_range hslot]

theorem slotOf?_eq_some_iff (l : Loaded ix rows deleted) (label slot : Nat) :
    ix.store.slotOf? label = some slot ↔ label = slot ∧ label < rows.length := by
  rw [l.coherent.store.slotOf?_iff, Store.labelOf?, l.labels_eq, List.getElem?_eq_some_iff]
  simp only [List.length_range, List.getElem_range]
  constructor
  · rintro ⟨hlt, rfl⟩
    exact ⟨rfl, hlt⟩
  · rintro ⟨rfl, hlt⟩
    exact ⟨hlt, rfl⟩

theorem vectorAt_eq (l : Loaded ix rows deleted) {slot : Nat} (hslot : slot < rows.length) :
    ix.store.vectorAt slot = (rows.getD slot []).map Single.value := by
  have hcode := congrArg (·[slot]?) l.codes_eq
  simp only [List.getElem?_map, List.getElem?_range hslot, Option.map_some] at hcode
  rw [Store.vectorAt, List.getD_eq_getElem?_getD, ← hcode]
  rfl

theorem isDeleted_eq (l : Loaded ix rows deleted) (slot : Nat) :
    ix.store.isDeleted slot = deleted.contains slot := by
  apply Bool.eq_iff_iff.mpr
  rw [l.isDeleted_iff, List.contains_iff_mem]

theorem candidates_eq (l : Loaded ix rows deleted) :
    ix.candidates none = keptRows rows deleted ix.excludesTombstones := by
  rw [candidates, keptRows, l.physical_eq]
  apply List.filter_congr
  intro slot hslot
  unfold isCandidate
  rw [l.isDeleted_eq, l.labelOf?_eq (List.mem_range.mp hslot)]
  cases ix.excludesTombstones && deleted.contains slot <;> rfl

theorem lt_of_mem_keptRows {exclude : Bool} {slot : Nat}
    (h : slot ∈ keptRows rows deleted exclude) : slot < rows.length :=
  List.mem_range.mp (List.mem_filter.mp h).1

theorem scored_eq (l : Loaded ix rows deleted) (q : List Score) :
    scored ix.store q (ix.candidates none) =
      scoredRows ix.metric q rows (keptRows rows deleted ix.excludesTombstones) := by
  rw [scored, scoredRows, l.candidates_eq]
  congr 2
  apply List.map_congr_left
  intro slot hslot
  exact l.vectorAt_eq (lt_of_mem_keptRows hslot)

theorem hits_eq (l : Loaded ix rows deleted) {found : List Scored}
    (hfound : ∀ x ∈ found, x.2 < rows.length) : ix.hits found = rowHits found := by
  apply List.filterMap_eq_map_iff_forall_eq_some.mpr
  rintro ⟨score, slot⟩ hx
  have hl := l.labelOf?_eq (hfound _ hx)
  dsimp only at hl ⊢
  rw [hl]
  rfl

theorem lt_of_mem_sort {m : Metric} {exclude : Bool} {p : Scored → Bool} {x : Scored}
    (hx : x ∈ ((scoredRows m q rows (keptRows rows deleted exclude)).filter p).mergeSort (inOrder m)) :
    x.2 < rows.length := by
  have hmem := (List.mergeSort_perm _ _).mem_iff.mp hx
  exact lt_of_mem_keptRows (List.of_mem_zip (List.mem_filter.mp hmem).1).2

theorem split_flatten (l : Loaded ix rows deleted)
    (hqueries : ∀ q ∈ queries, q.length = ix.dimension) :
    Rows.split ix.dimension (queries.map (·.map Single.value)).flatten =
      queries.map (·.map Single.value) := by
  apply Rows.split_flatten l.coherent.store.dimension_pos
  intro row hrow
  obtain ⟨q, hq, rfl⟩ := List.mem_map.mp hrow
  rw [List.length_map]
  exact hqueries q hq

theorem queryCount_eq (hqueries : ∀ q ∈ queries, q.length = ix.dimension) :
    ∃ count, ix.queryCount (queries.map (·.map Single.value)).flatten = .ok count := by
  have hlength : ∀ row ∈ queries.map (·.map Single.value), row.length = ix.dimension := by
    intro row hrow
    obtain ⟨q, hq, rfl⟩ := List.mem_map.mp hrow
    rw [List.length_map, hqueries q hq]
  rw [queryCount, Rows.length_flatten hlength]
  exact ⟨_, if_neg (not_not_intro (Nat.mul_mod_left _ _))⟩

/-- Search over rows, one answer for each query. -/
theorem search_eq (l : Loaded ix rows deleted) (hk : 1 ≤ k)
    (hqueries : ∀ q ∈ queries, q.length = ix.dimension) :
    ix.search (queries.map (·.map Single.value)).flatten k none =
      .ok (queries.map fun q => nearestRows ix.metric k (q.map Single.value) rows
        (keptRows rows deleted ix.excludesTombstones)) := by
  obtain ⟨count, hcount⟩ := queryCount_eq hqueries
  rw [search_eq_map l.coherent _ hk (Or.inl rfl), hcount, l.split_flatten hqueries, List.map_map]
  refine congrArg Except.ok (List.map_congr_left fun q _ => ?_)
  simp only [Function.comp_apply, l.scored_eq, nearest_eq]
  exact l.hits_eq fun x hx => lt_of_mem_sort (List.mem_of_mem_take hx)

theorem rangeSearch_eq (l : Loaded ix rows deleted) (hm : ix.metric.isPrimary = true)
    (radius : Score) (hqueries : ∀ q ∈ queries, q.length = ix.dimension) :
    ix.rangeSearch (queries.map (·.map Single.value)).flatten radius none =
      .ok (queries.map fun q => rowsWithin ix.metric radius (q.map Single.value) rows
        (keptRows rows deleted ix.excludesTombstones)) := by
  obtain ⟨count, hcount⟩ := queryCount_eq hqueries
  rw [rangeSearch_eq_map l.coherent hm, hcount, l.split_flatten hqueries, List.map_map]
  refine congrArg Except.ok (List.map_congr_left fun q _ => ?_)
  simp only [Function.comp_apply, l.scored_eq]
  exact l.hits_eq fun x hx => lt_of_mem_sort hx

theorem deletable_iff (l : Loaded ix rows []) (labels : List Nat) :
    ix.store.Deletable labels ↔ labels.Nodup ∧ ∀ label ∈ labels, label < rows.length := by
  have hlive : ∀ label, ix.store.Live label ↔ label < rows.length := by
    intro label
    constructor
    · rintro ⟨slot, hs, -⟩
      exact ((l.slotOf?_eq_some_iff label slot).mp hs).2
    · intro hlt
      refine ⟨label, (l.slotOf?_eq_some_iff label label).mpr ⟨rfl, hlt⟩, ?_⟩
      rw [Bool.eq_false_iff, ne_eq, l.isDeleted_iff]
      exact List.not_mem_nil
  constructor
  · rintro ⟨hnodup, hall⟩
    exact ⟨hnodup, fun label hl => (hlive label).mp (hall label hl)⟩
  · rintro ⟨hnodup, hall⟩
    exact ⟨hnodup, fun label hl => (hlive label).mpr (hall label hl)⟩

/-- Deleting moves nothing. -/
theorem markDeleted (l : Loaded ix rows []) {labels : List Nat} {pending : Nat}
    (hmark : ix.markDeleted labels = .ok (pending, jx)) :
    ix.store.Deletable labels ∧ Loaded jx rows labels ∧ jx.store.memory = ix.store.memory ∧
      jx.metric = ix.metric ∧ jx.dimension = ix.dimension ∧
      jx.excludesTombstones = ix.excludesTombstones := by
  have hj : jx.Coherent := l.coherent.after (store_of_markDeleted hmark)
  obtain ⟨t, hs, rfl⟩ := exists_store_of_markDeleted hmark
  obtain ⟨hd, -, hb⟩ := Store.buried_of_markDeleted l.coherent.store hs
  refine ⟨hd, ⟨hj, hb.labels_eq.trans l.labels_eq, hb.nextLabel_eq.trans l.nextLabel_eq, ?_, ?_⟩,
    hb.memory_eq, hb.metric_eq, congrArg Codec.dimension hb.codec_eq, rfl⟩
  · intro slot
    rw [hb.isDeleted_iff, l.isDeleted_iff]
    constructor
    · rintro (hnone | ⟨label, hl, hslot⟩)
      · cases hnone
      · rwa [← ((l.slotOf?_eq_some_iff label slot).mp hslot).1]
    · intro hm
      have hlt := ((l.deletable_iff labels).mp hd).2 slot hm
      exact Or.inr ⟨slot, hm, (l.slotOf?_eq_some_iff slot slot).mpr ⟨rfl, hlt⟩⟩
  · rw [← l.codes_eq]
    simp only [List.length_map, List.length_range]
    exact List.map_congr_left fun slot _ => hb.codeOf_eq slot

end Loaded

/-- The hit is a row that is kept, with the score of that row. An inner product may differ from the
score in the sign of a zero. -/
structure Credits (m : Metric) (q : List Score) (rows : List (List Single)) (kept : List Nat)
    (hit : Hit) : Prop where
  mem_kept : hit.label ∈ kept
  distance_beq :
    (m.distance q ((rows.getD hit.label []).map Single.value) == hit.distance) = true
  distance_eq : m ≠ .innerProduct →
    m.distance q ((rows.getD hit.label []).map Single.value) = hit.distance

section Credits

variable {m : Metric} {kept : List Nat} {x : Scored} {hit : Hit}

theorem of_mem_scoredRows (hrows : ∀ i ∈ kept, (rows.getD i []).length = q.length)
    (hx : x ∈ scoredRows m q rows kept) : x.2 ∈ kept ∧
      (x.1 = m.laneDistance q ((rows.getD x.2 []).map Single.value) ∨
        x.1 = m.distance q ((rows.getD x.2 []).map Single.value)) := by
  have hvectors : ∀ y ∈ kept.map (fun i => (rows.getD i []).map Single.value),
      y.length = q.length := by
    intro y hy
    obtain ⟨i, hi, rfl⟩ := List.mem_map.mp hy
    rw [List.length_map, hrows i hi]
  obtain ⟨i, hi, rfl⟩ := List.mem_iff_getElem.mp hx
  have hi' : i < kept.length := by
    rw [scoredRows, List.length_zip] at hi
    omega
  have hvector : i < (kept.map fun i => (rows.getD i []).map Single.value).length := by
    rwa [List.length_map]
  simp only [scoredRows, List.getElem_zip]
  refine ⟨List.getElem_mem hi', ?_⟩
  rw [Metric.getElem_scores hvectors _ hvector, List.getElem_map]
  split
  · exact Or.inl rfl
  · exact Or.inr rfl

theorem credits_of_mem_scoredRows (hq : 0 < q.length)
    (hrows : ∀ i ∈ kept, (rows.getD i []).length = q.length) (hx : x ∈ scoredRows m q rows kept)
    (hnan : x.1.isNaN = false) : Credits m q rows kept ⟨x.2, x.1⟩ := by
  obtain ⟨hkept, hlane | hsingle⟩ := of_mem_scoredRows hrows hx
  · have hrow : ((rows.getD x.2 []).map Single.value).length = q.length := by
      rw [List.length_map, hrows _ hkept]
    refine ⟨hkept, ?_, fun hm => ?_⟩
    · rw [hlane] at hnan ⊢
      exact Metric.distance_beq_laneDistance hq hrow hnan
    · rw [hlane]
      exact (Metric.laneDistance_eq hm hq hrow).symm
  · refine ⟨hkept, ?_, fun _ => hsingle.symm⟩
    rw [← hsingle]
    exact Score.beq_self hnan

variable {exclude : Bool}

theorem length_of_mem_keptRows (hrows : ∀ row ∈ rows, row.length = q.length) :
    ∀ i ∈ keptRows rows deleted exclude, (rows.getD i []).length = q.length := by
  intro i hi
  have hlt := Loaded.lt_of_mem_keptRows hi
  rw [List.getD_eq_getElem _ _ hlt]
  exact hrows _ (List.getElem_mem hlt)

theorem credits_of_mem_nearestRows (hq : 0 < q.length)
    (hrows : ∀ row ∈ rows, row.length = q.length)
    (hhit : hit ∈ nearestRows m k q rows (keptRows rows deleted exclude)) :
    Credits m q rows (keptRows rows deleted exclude) hit := by
  obtain ⟨x, hx, rfl⟩ := List.mem_map.mp hhit
  have hmem := List.mem_filter.mp ((List.mergeSort_perm _ _).mem_iff.mp (List.mem_of_mem_take hx))
  exact credits_of_mem_scoredRows hq (length_of_mem_keptRows hrows) hmem.1 (by simpa using hmem.2)

theorem credits_of_mem_rowsWithin {radius : Score} (hq : 0 < q.length)
    (hrows : ∀ row ∈ rows, row.length = q.length)
    (hhit : hit ∈ rowsWithin m radius q rows (keptRows rows deleted exclude)) :
    Credits m q rows (keptRows rows deleted exclude) hit := by
  obtain ⟨x, hx, rfl⟩ := List.mem_map.mp hhit
  have hmem := List.mem_filter.mp ((List.mergeSort_perm _ _).mem_iff.mp hx)
  exact credits_of_mem_scoredRows hq (length_of_mem_keptRows hrows) hmem.1 (isNaN_of_within hmem.2)

end Credits

end ExactNeighbors.Index
