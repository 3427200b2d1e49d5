import ExactNeighbors.Proofs.Command
import ExactNeighbors.Proofs.Store.Seats

/-! # Which slots a recycling command reuses

The report of a command that deletes rows and inserts others follows from three numbers, how many
rows there are, how many are deleted and how many come, and from which rows are deleted. The first
rows that come take the deleted slots, the least one first. Those behind them open new slots, or
there are fewer of them and the deleted slots that remain stay as they are.
-/
namespace ExactNeighbors

variable {host : Host} {files : Files} {settings : Settings} {options : BuildOptions}
variable {insert : String}
variable {rows fresh : List (List Single)} {deleted others : List Nat} {ix jx : Index}
variable {d n m slot j : Nat} {metric : Metric} {r r' : RecycleReport}

theorem mergeSort_eq_of_perm (h : deleted.Perm others) : deleted.mergeSort = others.mergeSort := by
  have hsorted : ∀ xs : List Nat, xs.mergeSort.Pairwise (· ≤ ·) :=
    List.pairwise_mergeSort' (· ≤ ·)
  refine List.Perm.eq_of_pairwise' (hsorted _) (hsorted _) ?_
  exact (List.mergeSort_perm _ _).trans (h.trans (List.mergeSort_perm _ _).symm)

/-- The report in closed form, for `n` rows some of which are deleted, and `m` rows that come. -/
structure Recycled (metric : Metric) (d n m : Nat) (deleted : List Nat) (r : RecycleReport) :
    Prop where
  before_eq : r.before = (List.range n).map fun slot => ⟨slot, slot, deleted.contains slot⟩
  freeSlots_eq : r.freeSlots = deleted.mergeSort
  inserted_eq : r.inserted = (List.range m).map (n + ·)
  length_after : r.after.length = n + (m - deleted.length)
  reused : ∀ j slot, r.freeSlots[j]? = some slot → j < m → r.after[slot]? = some ⟨slot, n + j, false⟩
  left : ∀ j slot, r.freeSlots[j]? = some slot → m ≤ j → r.after[slot]? = some ⟨slot, slot, true⟩
  untouched : ∀ slot < n, slot ∉ deleted → r.after[slot]? = some ⟨slot, slot, false⟩
  opened : ∀ j, deleted.length ≤ j → j < m →
    r.after[n + (j - deleted.length)]? = some ⟨n + (j - deleted.length), n + j, false⟩
  stats_eq : r.stats = {
    live := n - deleted.length + m
    physical := n + (m - deleted.length)
    pendingRemovals := deleted.length - m
    dimension := d
    codeSize := d * 4
    metric }

namespace Recycled

/-- The closed form leaves nothing open, and the order of the deletions does not enter it. -/
theorem unique (h : Recycled metric d n m deleted r) (h' : Recycled metric d n m others r')
    (hperm : deleted.Perm others) : r = r' := by
  have hlength := hperm.length_eq
  have hfree : r.freeSlots = r'.freeSlots := by
    rw [h.freeSlots_eq, h'.freeSlots_eq, mergeSort_eq_of_perm hperm]
  have hbefore : r.before = r'.before := by
    rw [h.before_eq, h'.before_eq]
    refine List.map_congr_left fun slot _ => ?_
    rw [hperm.contains_eq]
  have hafter : r.after = r'.after := by
    refine List.ext_getElem? fun slot => ?_
    rcases Nat.lt_or_ge slot n with hold | hnew
    · by_cases hd : slot ∈ deleted
      · have hmem : slot ∈ r.freeSlots := by rwa [h.freeSlots_eq, List.mem_mergeSort]
        obtain ⟨j, hj⟩ := List.mem_iff_getElem?.mp hmem
        rcases Nat.lt_or_ge j m with hlt | hge
        · rw [h.reused j slot hj hlt, h'.reused j slot (hfree ▸ hj) hlt]
        · rw [h.left j slot hj hge, h'.left j slot (hfree ▸ hj) hge]
      · rw [h.untouched slot hold hd, h'.untouched slot hold (mt hperm.mem_iff.mpr hd)]
    · obtain ⟨i, rfl⟩ := Nat.exists_eq_add_of_le hnew
      by_cases hi : deleted.length + i < m
      · have hopened := h.opened (deleted.length + i) (Nat.le_add_right _ _) hi
        have hopened' := h'.opened (deleted.length + i) (hlength ▸ Nat.le_add_right _ _) hi
        rw [Nat.add_sub_cancel_left] at hopened
        rw [← hlength, Nat.add_sub_cancel_left] at hopened'
        rw [hopened, hopened']
      · have hend := h.length_after
        have hend' := h'.length_after
        rw [List.getElem?_eq_none (by omega), List.getElem?_eq_none (by omega)]
  have hstats : r.stats = r'.stats := by rw [h.stats_eq, h'.stats_eq, hlength]
  have hinserted : r.inserted = r'.inserted := by rw [h.inserted_eq, h'.inserted_eq]
  obtain ⟨⟩ := r
  obtain ⟨⟩ := r'
  simp_all

end Recycled

namespace Index.Loaded

/-- The free slots are the numbers of the deleted rows, sorted. -/
theorem free_eq (l : Loaded ix rows deleted) (hnodup : deleted.Nodup) :
    ix.store.free.members = deleted.mergeSort := by
  have h := l.coherent.store
  have hsorted : ix.store.free.members.Pairwise (· ≤ ·) := h.free_sorted.imp Nat.le_of_lt
  have hfree : ix.store.free.members.Nodup := h.free_sorted.imp Nat.ne_of_lt
  have hperm : ix.store.free.members.Perm deleted := by
    refine (List.perm_ext_iff_of_nodup hfree hnodup).mpr fun slot => ?_
    rw [h.mem_free_iff, l.isDeleted_iff]
  rw [← mergeSort_eq_of_perm hperm]
  exact (List.mergeSort_eq_self (· ≤ ·) hsorted).symm

theorem length_free (l : Loaded ix rows deleted) (hnodup : deleted.Nodup) :
    ix.store.free.members.length = deleted.length := by
  rw [l.free_eq hnodup, List.length_mergeSort]

theorem pending_eq (l : Loaded ix rows deleted) (hnodup : deleted.Nodup) :
    ix.store.pending = deleted.length := by
  rw [l.coherent.store.pending_eq, IdSet.size, l.length_free hnodup]

end Index.Loaded

namespace Command

/-- Every slot has a label, so that there is an entry for each. -/
theorem slotTable_eq (ix : Index) : slotTable ix = (List.range ix.store.physical).map fun slot =>
    ⟨slot, ix.store.labels.getD slot 0, ix.store.isDeleted slot⟩ := by
  refine List.filterMap_eq_map_iff_forall_eq_some.mpr fun slot hslot => ?_
  have hlt : slot < ix.store.labels.length := List.mem_range.mp hslot
  rw [Store.labelOf?, List.getElem?_eq_getElem hlt, List.getD_eq_getElem _ _ hlt]
  rfl

theorem length_slotTable (ix : Index) : (slotTable ix).length = ix.store.physical := by
  rw [slotTable_eq, List.length_map, List.length_range]

theorem getElem?_slotTable {label : Nat} (hlabel : ix.store.labelOf? slot = some label) :
    (slotTable ix)[slot]? = some ⟨slot, label, ix.store.isDeleted slot⟩ := by
  obtain ⟨hlt, hget⟩ := List.getElem?_eq_some_iff.mp hlabel
  have hslot : slot < ix.store.physical := hlt
  rw [slotTable_eq, List.getElem?_map, List.getElem?_range hslot, Option.map_some,
    List.getD_eq_getElem _ _ hlt, hget]

theorem slotTable_loaded (l : ix.Loaded rows deleted) : slotTable ix =
    (List.range rows.length).map fun slot => ⟨slot, slot, deleted.contains slot⟩ := by
  rw [slotTable_eq, l.physical_eq]
  refine List.map_congr_left fun slot hslot => ?_
  have hlt : slot < (List.range rows.length).length := by
    rwa [List.length_range, ← List.mem_range]
  rw [l.isDeleted_eq, l.labels_eq, List.getD_eq_getElem _ _ hlt, List.getElem_range]

section Insertion

variable (l : ix.Loaded rows deleted) (hnodup : deleted.Nodup)
include l hnodup

theorem seat_of_deleted (hj : deleted.mergeSort[j]? = some slot) : ix.store.seat j = slot := by
  rw [← l.free_eq hnodup] at hj
  obtain ⟨hlt, hget⟩ := List.getElem?_eq_some_iff.mp hj
  rw [Store.seat, dif_pos hlt, hget]

theorem seat_behind (hj : deleted.length ≤ j) :
    ix.store.seat j = rows.length + (j - deleted.length) := by
  have hcount := l.length_free hnodup
  rw [Store.seat, dif_neg (by omega), hcount, l.physical_eq]

variable (seated : Store.Seated ix.store fresh jx.store)
include seated

omit hnodup in
theorem entry_taken (hj : j < fresh.length) : (slotTable jx)[ix.store.seat j]? =
    some ⟨ix.store.seat j, rows.length + j, false⟩ := by
  have hcontent := seated.taken j hj
  have hlabel : jx.store.labelOf? (ix.store.seat j) = some (ix.store.nextLabel + j) :=
    congrArg Prod.fst hcontent
  have halive : jx.store.isDeleted (ix.store.seat j) = false := congrArg (·.2.1) hcontent
  rw [getElem?_slotTable hlabel, halive, l.nextLabel_eq]

omit hnodup in
theorem entry_kept (hslot : slot < rows.length)
    (hfree : ∀ j < fresh.length, ix.store.seat j ≠ slot) :
    (slotTable jx)[slot]? = some ⟨slot, slot, deleted.contains slot⟩ := by
  have hcontent := seated.others slot hfree
  have hlabel : jx.store.labelOf? slot = some slot :=
    (congrArg Prod.fst hcontent).trans (l.labelOf?_eq hslot)
  have hdead : jx.store.isDeleted slot = ix.store.isDeleted slot := congrArg (·.2.1) hcontent
  rw [getElem?_slotTable hlabel, hdead, l.isDeleted_eq]

/-- A deleted slot stays when there are not enough rows for it. -/
theorem entry_left (hlt : ∀ label ∈ deleted, label < rows.length)
    (hj : deleted.mergeSort[j]? = some slot) (hle : fresh.length ≤ j) :
    (slotTable jx)[slot]? = some ⟨slot, slot, true⟩ := by
  have hmem : slot ∈ deleted := List.mem_mergeSort.mp (List.mem_of_getElem? hj)
  have hsorted : deleted.mergeSort.Nodup := List.nodup_mergeSort.mpr hnodup
  have hkept := entry_kept l seated (hlt slot hmem) ?_
  · rwa [List.contains_iff_mem.mpr hmem] at hkept
  · intro i hi hseat
    obtain ⟨hbound, hget⟩ := List.getElem?_eq_some_iff.mp hj
    have hi' : i < deleted.mergeSort.length := by omega
    rw [seat_of_deleted l hnodup (List.getElem?_eq_getElem hi'), ← hget] at hseat
    have hsame : i = j := hsorted.getElem_inj_iff.mp hseat
    omega

omit hnodup in
theorem entry_untouched (hslot : slot < rows.length) (halive : slot ∉ deleted) :
    (slotTable jx)[slot]? = some ⟨slot, slot, false⟩ := by
  have hkept := entry_kept l seated hslot ?_
  · rwa [Bool.eq_false_iff.mpr (mt List.contains_iff_mem.mp halive)] at hkept
  · rintro i - rfl
    rcases l.coherent.store.seat_vacant i with hdead | hbehind
    · exact halive ((l.isDeleted_iff _).mp hdead)
    · rw [l.physical_eq] at hbehind
      omega

end Insertion

/-- Rows that there is room for are inserted, whatever is deleted. -/
theorem exists_inserted (l : ix.Loaded rows deleted)
    (hrows : ∀ row ∈ fresh, row.length = ix.dimension)
    (hroom : ix.store.roomFault? fresh.length = none) :
    ∃ jx, ix.add fresh.flatten = .ok ((List.range fresh.length).map (rows.length + ·), jx) ∧
      Store.PlacedAll ix.store fresh jx.store := by
  have h := l.coherent.store
  have hflat : fresh.flatten.length = fresh.length * ix.store.dimension := Rows.length_flatten hrows
  have hsplit : Rows.split ix.store.dimension fresh.flatten = fresh :=
    Rows.split_flatten h.dimension_pos hrows
  have htrained : ix.store.codec.isTrained = true := by
    rw [l.coherent.codec_eq]
    rfl
  have hfault := Store.addFault?_of_reserve h.dimension_pos htrained hflat
    fun _ => Store.reserve_eq_ok_iff.mpr hroom
  obtain ⟨t, hadd, hplaced⟩ := Store.add_eq_ok h hfault
  rw [hsplit] at hplaced
  rw [← Rows.length_split, hsplit, l.nextLabel_eq, List.range'_eq_map_range] at hadd
  refine ⟨{ ix with store := t }, ?_, hplaced⟩
  rw [Index.add, hadd]
  rfl

theorem shaped_append (h : Shaped rows d) (hfresh : Shaped fresh d) : Shaped (rows ++ fresh) d where
  ne_nil := List.append_ne_nil_of_left_ne_nil h.ne_nil fresh
  dimension_pos := h.dimension_pos
  length_eq row hrow := (List.mem_append.mp hrow).elim (h.length_eq row) (hfresh.length_eq row)

/-- Room for the rows of both files is room for those of the first. -/
theorem granted_of_append (h : Shaped rows d) (hfresh : Shaped fresh d)
    (hroom : Granted host settings options (rows ++ fresh)) : Granted host settings options rows := by
  have hall := hroom.roomFault?_eq (shaped_append h hfresh)
  rw [Granted, h.dimension_eq]
  refine Store.reserve_eq_ok_iff.mpr (Store.roomFault?_mono ?_ hall)
  rw [List.length_append]
  omega

theorem Built.codec_eq (built : Built host settings options rows d ix) :
    ix.store.codec = Codec.flat d := by
  rw [built.loaded.coherent.codec_eq, built.dimension_eq]

/-- Room for the rows of both files is room for those of the second behind those of the first. -/
theorem Built.roomFault?_eq (built : Built host settings options rows d ix) (h : Shaped rows d)
    (hfresh : Shaped fresh d) (hroom : Granted host settings options (rows ++ fresh)) :
    ix.store.roomFault? fresh.length = none ∧ d * 4 < Word.size := by
  have hall := Store.roomFault?_mono (Nat.le_max_right _ _)
    (hroom.roomFault?_eq (shaped_append h hfresh))
  obtain ⟨helements, hholds⟩ := Store.roomFault?_eq_none_iff.mp hall
  have helements : (rows ++ fresh).length * d < Word.size := helements
  have hholds : host.memory.Holds ((0 + (rows ++ fresh).length * d) * 4)
    (0 + (rows ++ fresh).length) := hholds
  rw [Nat.zero_add, Nat.zero_add, List.length_append, Nat.add_mul] at hholds
  rw [List.length_append, Nat.add_mul] at helements
  have hcodes := built.loaded.coherent.store.codes_length
  rw [built.codec_eq, built.loaded.physical_eq] at hcodes
  constructor
  · rw [Store.roomFault?_eq_none_iff, hcodes, built.codec_eq, built.memory_eq,
      built.loaded.physical_eq]
    exact ⟨(Nat.le_add_left _ _).trans_lt helements, hholds⟩
  · have hone : d ≤ rows.length * d := Nat.le_mul_of_pos_left d h.length_pos
    have hbytes := hholds.bytes_le_longest
    simp only [Word.longestBuffer, Word.size] at hbytes ⊢
    omega

theorem recycle_eq {labels : List Nat} {stats : Stats}
    (hbuild : build host files settings options = .ok ix)
    (hpath : rowsAt? host.rows? files insert = some fresh)
    (hfresh : Shaped fresh ix.dimension) (hadd : ix.add fresh.flatten = .ok (labels, jx))
    (hstats : jx.stats = .ok stats) : recycle host files settings options insert = .ok {
      before := slotTable ix
      freeSlots := ix.store.free.members
      inserted := labels
      after := slotTable jx
      stats } := by
  rw [recycle, hbuild]
  change (readVectors host files insert >>= _) = _
  rw [readVectors_eq_ok hpath hfresh]
  change (if ix.dimension ≠ ix.dimension then _ else _) = _
  rw [if_neg (not_not_intro rfl)]
  change (during .insert (ix.add fresh.flatten) >>= _) = _
  rw [hadd]
  change (during .count jx.stats >>= _) = _
  rw [hstats]
  rfl

/-- The counters behind an insertion. -/
theorem Built.stats_eq (built : Built host settings options rows d ix)
    (hnodup : options.delete.Nodup)
    (hplaced : Store.PlacedAll ix.store fresh jx.store) (hbytes : d * 4 < Word.size) :
    jx.stats = .ok {
      live := rows.length - options.delete.length + fresh.length
      physical := rows.length + (fresh.length - options.delete.length)
      pendingRemovals := options.delete.length - fresh.length
      dimension := d
      codeSize := d * 4
      metric := metricOf settings options } := by
  have h := built.loaded.coherent.store
  have seated := hplaced.seated h
  have hcodec : jx.store.codec = Codec.flat d := hplaced.codec_eq.trans built.codec_eq
  have hmetric : jx.store.metric = metricOf settings options :=
    hplaced.metric_eq.trans built.metric_eq
  have hpending := built.loaded.pending_eq hnodup
  have hle := h.pending_le
  rw [built.loaded.physical_eq, hpending] at hle
  have hphysical : jx.store.physical = rows.length + (fresh.length - options.delete.length) := by
    rw [seated.physical_eq, built.loaded.physical_eq, built.loaded.length_free hnodup]
  have hleft : jx.store.pending = options.delete.length - fresh.length := by
    rw [seated.pending_eq, hpending]
  have hlive : jx.store.live = rows.length - options.delete.length + fresh.length := by
    rw [Store.live, hphysical, hleft]
    omega
  have hsize : jx.store.codeSize = .ok (d * 4) := by
    have hproduct : jx.store.codec.codeSize? = some (d * 4) := by
      rw [hcodec]
      exact Word.product?_eq_some_iff.mpr ⟨rfl, hbytes⟩
    rw [Store.codeSize, hproduct]
  have hdim : jx.store.dimension = d := congrArg Codec.dimension hcodec
  rw [Index.stats, hsize, hlive, hphysical, hleft, hdim, hmetric]
  rfl

/-- The report of a command whose files and deletions fit together. -/
theorem Buildable.exists_recycled (b : Buildable settings options rows d)
    (hdata : rowsAt? host.rows? files options.data = some rows)
    (hpath : rowsAt? host.rows? files insert = some fresh)
    (hfresh : Shaped fresh d) (hroom : Granted host settings options (rows ++ fresh)) :
    ∃ r, recycle host files settings options insert = .ok r ∧
      Recycled (metricOf settings options) d rows.length fresh.length options.delete r := by
  obtain ⟨ix, hbuild, built⟩ := b.exists_built hdata (granted_of_append b.shaped hfresh hroom)
  obtain ⟨hgranted, hbytes⟩ := built.roomFault?_eq b.shaped hfresh hroom
  have l := built.loaded
  have hrows : Shaped fresh ix.dimension := built.dimension_eq.symm ▸ hfresh
  obtain ⟨jx, hadd, hplaced⟩ := exists_inserted l hrows.length_eq hgranted
  have seated := hplaced.seated l.coherent.store
  have hstats := built.stats_eq b.nodup hplaced hbytes
  have hsorted := l.free_eq b.nodup
  refine ⟨_, recycle_eq hbuild hpath hrows hadd hstats, ?_⟩
  constructor
  case before_eq => exact slotTable_loaded l
  case freeSlots_eq => exact hsorted
  case inserted_eq => rfl
  case length_after =>
    rw [length_slotTable, seated.physical_eq, l.physical_eq, l.length_free b.nodup]
  case reused =>
    intro j slot hj hlt
    have hseat := seat_of_deleted l b.nodup (hsorted ▸ hj)
    have htaken := entry_taken l seated hlt
    rwa [hseat] at htaken
  case left =>
    intro j slot hj hle
    exact entry_left l b.nodup seated b.lt (hsorted ▸ hj) hle
  case untouched => exact fun slot hslot halive => entry_untouched l seated hslot halive
  case opened =>
    intro j hge hlt
    have htaken := entry_taken l seated hlt
    rwa [seat_behind l b.nodup hge] at htaken
  case stats_eq => rfl

/-- A command that deletes and inserts reports what the two lists of rows and the deletions decide,
in whichever order the deletions are given: the least deleted slots are reused first, the others
stay deleted or, when there are not enough of them, new slots are opened. -/
theorem recycle_report (hdata : rowsAt? host.rows? files options.data = some rows)
    (hpath : rowsAt? host.rows? files insert = some fresh) (b : Buildable settings options rows d)
    (hfresh : Shaped fresh d) (hroom : Granted host settings options (rows ++ fresh)) :
    ∃ r, recycle host files settings options insert = .ok r ∧
      Recycled (metricOf settings options) d rows.length fresh.length options.delete r ∧
      ∀ delete : List Nat, delete.Perm options.delete →
        recycle host files settings { options with delete } insert = .ok r := by
  obtain ⟨r, hrecycle, hr⟩ := b.exists_recycled hdata hpath hfresh hroom
  refine ⟨r, hrecycle, hr, fun delete hperm => ?_⟩
  have b' : Buildable settings { options with delete } rows d :=
    ⟨b.shaped, b.isValid, hperm.nodup_iff.mpr b.nodup,
      fun label hl => b.lt label (hperm.mem_iff.mp hl)⟩
  obtain ⟨r', hrecycle', hr'⟩ := b'.exists_recycled hdata hpath hfresh hroom
  rw [hrecycle', hr'.unique hr hperm]

/-- Two of three rows are deleted and three come: the third of these opens a slot. -/
theorem recycle_report_opened :
    let files : Files := fun path =>
      [("rows.json", "[[1], [2], [4]]"), ("fresh.json", "[[4], [2], [1]]")].lookup path
    let options : BuildOptions := { data := "rows.json", delete := [2, 0] }
    let one : Single := ⟨0x3f800000⟩
    let two : Single := ⟨0x40000000⟩
    let four : Single := ⟨0x40800000⟩
    let rows := [[one], [two], [four]]
    let fresh := [[four], [two], [one]]
    (rowsAt? Host.standard.rows? files options.data = some rows ∧
      rowsAt? Host.standard.rows? files "fresh.json" = some fresh ∧
      Buildable {} options rows 1 ∧ Shaped fresh 1 ∧ Granted .standard {} options (rows ++ fresh)) ∧
    ∃ r, recycle .standard files {} options "fresh.json" = .ok r ∧
      recycle .standard files {} { options with delete := [0, 2] } "fresh.json" = .ok r ∧
      r.freeSlots = [0, 2] ∧ r.inserted = [3, 4, 5] ∧ r.after.length = 4 ∧
      r.after[0]? = some ⟨0, 3, false⟩ ∧ r.after[1]? = some ⟨1, 1, false⟩ ∧
      r.after[2]? = some ⟨2, 4, false⟩ ∧ r.after[3]? = some ⟨3, 5, false⟩ ∧
      r.stats.live = 4 := by
  intro files options one two four rows fresh
  have hdata : rowsAt? Host.standard.rows? files options.data = some rows := by decide +kernel
  have hpath : rowsAt? Host.standard.rows? files "fresh.json" = some fresh := by decide +kernel
  have hshaped : Shaped rows 1 := ⟨by decide, by decide, by decide⟩
  have hfresh : Shaped fresh 1 := ⟨by decide, by decide, by decide⟩
  have b : Buildable {} options rows 1 := ⟨hshaped, rfl, by decide, by decide⟩
  have hroom : Granted .standard {} options (rows ++ fresh) := rfl
  obtain ⟨r, hrecycle, hr, hperm⟩ := recycle_report hdata hpath b hfresh hroom
  have hfree : r.freeSlots = [0, 2] := by
    rw [hr.freeSlots_eq, mergeSort_eq_of_perm (show options.delete.Perm [0, 2] by decide)]
    exact List.mergeSort_of_pairwise (by decide)
  have hopened := hr.opened 2 (by decide) (by decide)
  have hlive : r.stats.live = 4 := congrArg Stats.live hr.stats_eq
  refine ⟨⟨hdata, hpath, b, hfresh, hroom⟩, r, hrecycle, hperm [0, 2] (by decide), hfree,
    hr.inserted_eq, hr.length_after, ?_, ?_, ?_, hopened, hlive⟩
  · exact hr.reused 0 0 (by rw [hfree]; rfl) (by decide)
  · exact hr.untouched 1 (by decide) (by decide)
  · exact hr.reused 1 2 (by rw [hfree]; rfl) (by decide)

end Command
end ExactNeighbors
