import ExactNeighbors.Proofs.Index.Reachable
import ExactNeighbors.Proofs.Index.Scan
import ExactNeighbors.Proofs.Index.Sorting

/-! # Nearest-neighbour search is exhaustive

For each query the answer is the beginning of the sorted list of all candidates: nothing is lost on
the way through the blocks of four, the bounded ranking and the translation of slots into labels.
-/
namespace ExactNeighbors.Index

variable {ix : Index} {selector : Option Selector} {slot label : Nat} {x : Scored}

theorem isCandidate_iff : ix.isCandidate selector slot = true ↔ ∃ label,
    ix.store.labelOf? slot = some label ∧ (∀ sel, selector = some sel → sel.accepts label = true) ∧
      (ix.excludesTombstones = true → ix.store.isDeleted slot = false) := by
  unfold isCandidate
  by_cases hdead : (ix.excludesTombstones && ix.store.isDeleted slot) = true
  · rw [if_pos hdead]
    constructor
    · intro h
      cases h
    · rintro ⟨label, -, -, hlive⟩
      rw [Bool.and_eq_true] at hdead
      rw [hlive hdead.1] at hdead
      cases hdead.2
  · rw [if_neg hdead]
    have hlive : ix.excludesTombstones = true → ix.store.isDeleted slot = false := by
      intro he
      simpa [he] using hdead
    cases hl : ix.store.labelOf? slot with
    | none => simp
    | some label =>
      cases selector with
      | none => simpa using hlive
      | some sel => simpa using fun _ => hlive

theorem mem_candidates : slot ∈ ix.candidates selector ↔ ix.isCandidate selector slot = true := by
  rw [candidates, List.mem_filter, List.mem_range]
  refine ⟨fun h => h.2, fun h => ⟨?_, h⟩⟩
  obtain ⟨label, hl, -, -⟩ := isCandidate_iff.mp h
  rw [← Nat.not_le, ← Store.labelOf?_eq_none_iff, hl]
  intro hnone
  cases hnone

theorem exists_label_of_mem_candidates (h : slot ∈ ix.candidates selector) :
    ∃ label, ix.store.labelOf? slot = some label := by
  obtain ⟨label, hl, -⟩ := isCandidate_iff.mp (mem_candidates.mp h)
  exact ⟨label, hl⟩

theorem lt_physical_of_mem_candidates (h : slot ∈ ix.candidates selector) :
    slot < ix.store.physical := List.mem_range.mp (List.mem_filter.mp h).1

theorem length_candidates_le (ix : Index) (selector : Option Selector) :
    (ix.candidates selector).length ≤ ix.store.physical :=
  (List.length_filter_le _ _).trans_eq List.length_range

/-- A selector takes its share from the candidates that there are without one. -/
theorem candidates_eq_filter (ix : Index) (selector : Option Selector) :
    ix.candidates selector = (ix.candidates none).filter fun slot =>
      (ix.store.labelOf? slot).any fun label => selector.all (·.accepts label) := by
  rw [candidates, candidates, List.filter_filter]
  apply List.filter_congr
  intro slot _
  apply Bool.eq_iff_iff.mpr
  simp only [Bool.and_eq_true, isCandidate_iff, Option.any_eq_true, Option.all_eq_true]
  constructor
  · rintro ⟨label, hl, haccepts, hlive⟩
    exact ⟨⟨label, hl, haccepts⟩, label, hl, by simp, hlive⟩
  · rintro ⟨⟨label, hl, haccepts⟩, -, -, -, hlive⟩
    exact ⟨label, hl, haccepts, hlive⟩

theorem candidates_sorted (ix : Index) (selector : Option Selector) :
    (ix.candidates selector).Pairwise (· < ·) := List.pairwise_lt_range.filter _

theorem nodup_candidates (ix : Index) (selector : Option Selector) :
    (ix.candidates selector).Nodup := (candidates_sorted ix selector).imp Nat.ne_of_lt

theorem queryCount_congr {jx : Index} (h : jx.dimension = ix.dimension) (queries : List Score) :
    jx.queryCount queries = ix.queryCount queries := by
  rw [queryCount, queryCount, h]

theorem queryCount_whole {queries : List Score} (hq : queries.length % ix.dimension = 0) :
    ix.queryCount queries = .ok (queries.length / ix.dimension) := by
  rw [queryCount]
  exact if_neg (not_not_intro hq)

/-- Why a search is refused whatever its queries are, if it is. -/
def refusal? (m : Metric) (k : Nat) (selector : Option Selector) : Option IndexError :=
  if k = 0 then some (.invalidK k)
  else if selector.isSome ∧ !m.isPrimary ∧ !m.isSimilarity then some (.selectorNotSupported m)
  else none

theorem refusal?_eq_none {m : Metric} {k : Nat} (hk : 1 ≤ k)
    (hs : selector = none ∨ m = .l2 ∨ m = .innerProduct ∨ m = .jaccard) :
    refusal? m k selector = none := by
  rw [refusal?, if_neg (by omega)]
  rcases hs with rfl | rfl | rfl | rfl <;> simp [Metric.isPrimary, Metric.isSimilarity]

theorem search_eq_match (h : ix.Coherent) (queries : List Score) (k : Nat)
    (selector : Option Selector) :
    ix.search queries k selector = match refusal? ix.metric k selector with
      | some e => .error e
      | none => (ix.queryCount queries).map fun _ =>
        (Rows.split ix.dimension queries).map fun q =>
          ix.hits (nearest ix.metric k (scored ix.store q (ix.candidates selector))) := by
  unfold search refusal?
  by_cases hk : k = 0
  · rw [if_pos hk, if_pos hk]
    rfl
  · rw [if_neg hk, if_neg hk]
    by_cases hs : selector.isSome ∧ !ix.metric.isPrimary ∧ !ix.metric.isSimilarity
    · rw [if_pos hs, if_pos hs]
      rfl
    · rw [if_neg hs, if_neg hs, scanAll_eq h.store]
      dsimp only [bind, Except.bind, pure, Except.pure]
      rw [List.map_map]
      cases ix.queryCount queries with
      | error e => rfl
      | ok count => rfl

theorem search_eq_map (h : ix.Coherent) (queries : List Score) {k : Nat} (hk : 1 ≤ k)
    (hs : selector = none ∨ ix.metric = .l2 ∨ ix.metric = .innerProduct ∨ ix.metric = .jaccard) :
    ix.search queries k selector = (ix.queryCount queries).map fun _ =>
      (Rows.split ix.dimension queries).map fun q =>
        ix.hits (nearest ix.metric k (scored ix.store q (ix.candidates selector))) := by
  rw [search_eq_match h, refusal?_eq_none hk hs]

theorem search_eq (h : ix.Coherent) {queries : List Score} {k : Nat} (hk : 1 ≤ k)
    (hq : queries.length % ix.dimension = 0)
    (hs : selector = none ∨ ix.metric = .l2 ∨ ix.metric = .innerProduct ∨ ix.metric = .jaccard) :
    ix.search queries k selector = .ok ((Rows.split ix.dimension queries).map fun q =>
      ix.hits (nearest ix.metric k (scored ix.store q (ix.candidates selector)))) := by
  rw [search_eq_map h queries hk hs, queryCount_whole hq]
  rfl

/-- A test of hits is a test of the slots that they are found in. -/
theorem hits_filter (test : Hit → Bool) {p : Scored → Bool}
    (hp : ∀ score slot label, ix.store.labelOf? slot = some label →
      p (score, slot) = test ⟨label, score⟩) (found : List Scored) :
    ix.hits (found.filter p) = (ix.hits found).filter test := by
  rw [hits, List.filterMap_filter, hits, List.filter_filterMap]
  congr 1
  funext ⟨score, slot⟩
  cases hl : ix.store.labelOf? slot with
  | none => simp [hl]
  | some label => simp [hl, hp score slot label hl, Option.filter]

theorem length_scored (s : Store Single) (q : List Score) (slots : List Nat) :
    (scored s q slots).length = slots.length := by
  have hlength := congrArg List.length (map_snd_scored s q slots)
  rwa [List.length_map] at hlength

theorem length_scored_candidates_le (ix : Index) (q : List Score) (selector : Option Selector) :
    (scored ix.store q (ix.candidates selector)).length ≤ ix.store.physical := by
  rw [length_scored]
  exact length_candidates_le ix selector

/-- Slots that have labels lose nothing on their way to hits. -/
theorem hits_eq_map {found : List Scored}
    (h : ∀ x ∈ found, ∃ label, ix.store.labelOf? x.2 = some label) :
    ix.hits found = found.map fun x => ⟨(ix.store.labelOf? x.2).getD 0, x.1⟩ := by
  apply List.filterMap_eq_map_iff_forall_eq_some.mpr
  intro x hx
  obtain ⟨label, hl⟩ := h x hx
  simp [hl]

theorem map_hits {found : List Scored}
    (h : ∀ x ∈ found, ∃ label, ix.store.labelOf? x.2 = some label) :
    (ix.hits found).map (fun hit => (hit.distance, some hit.label)) =
      found.map fun x => (x.1, ix.store.labelOf? x.2) := by
  rw [hits_eq_map h, List.map_map]
  apply List.map_congr_left
  intro x hx
  obtain ⟨label, hl⟩ := h x hx
  simp [hl]

theorem hits_take {found : List Scored}
    (h : ∀ x ∈ found, ∃ label, ix.store.labelOf? x.2 = some label) (k : Nat) :
    ix.hits (found.take k) = (ix.hits found).take k := by
  have htake : ∀ x ∈ found.take k, ∃ label, ix.store.labelOf? x.2 = some label := by
    intro x hx
    exact h x (List.mem_of_mem_take hx)
  rw [hits_eq_map h, hits_eq_map htake, List.map_take]

theorem map_label_hits (ix : Index) (found : List Scored) :
    (ix.hits found).map Hit.label = (found.map Prod.snd).filterMap ix.store.labelOf? := by
  rw [hits, List.map_filterMap, List.filterMap_map]
  congr 1
  funext x
  simp [Function.comp_def]

/-- No two slots share a label. -/
theorem nodup_filterMap_labelOf? (h : ix.Coherent) {slots : List Nat} (hs : slots.Nodup) :
    (slots.filterMap ix.store.labelOf?).Nodup := by
  refine hs.filterMap ?_
  intro i j label hi hj
  have hi := (h.store.slotOf?_iff label i).mpr hi
  have hj := (h.store.slotOf?_iff label j).mpr hj
  exact Option.some.inj (hi.symm.trans hj)

theorem nodup_labels (h : ix.Coherent) {found : List Scored} (hf : (found.map Prod.snd).Nodup) :
    ((ix.hits found).map Hit.label).Nodup := by
  rw [map_label_hits]
  exact nodup_filterMap_labelOf? h hf

theorem exists_slot_of_mem_hits {found : List Scored} {hit : Hit} (h : hit ∈ ix.hits found) :
    ∃ x ∈ found, ix.store.labelOf? x.2 = some hit.label := by
  have hlabel := List.mem_map_of_mem (f := Hit.label) h
  rw [map_label_hits, List.mem_filterMap] at hlabel
  obtain ⟨slot, hslot, hl⟩ := hlabel
  obtain ⟨x, hx, rfl⟩ := List.mem_map.mp hslot
  exact ⟨x, hx, hl⟩

theorem mem_candidates_of_sorted {q : List Score} {p : Scored → Bool} {le : Scored → Scored → Bool}
    (hx : x ∈ ((scored ix.store q (ix.candidates selector)).filter p).mergeSort le) :
    x.2 ∈ ix.candidates selector := by
  have hx := (List.mergeSort_perm _ _).mem_iff.mp hx
  have hsnd := List.mem_map_of_mem (f := Prod.snd) (List.mem_filter.mp hx).1
  rwa [map_snd_scored] at hsnd

theorem mem_candidates_of_nearest {k : Nat} {q : List Score}
    (hx : x ∈ nearest ix.metric k (scored ix.store q (ix.candidates selector))) :
    x.2 ∈ ix.candidates selector := by
  rw [nearest_eq] at hx
  exact mem_candidates_of_sorted (List.mem_of_mem_take hx)

theorem nodup_slots_nearest (ix : Index) (selector : Option Selector) (k : Nat) (q : List Score) :
    ((nearest ix.metric k (scored ix.store q (ix.candidates selector))).map Prod.snd).Nodup := by
  have hslots : ((scored ix.store q (ix.candidates selector)).map Prod.snd).Nodup := by
    rw [map_snd_scored]
    exact nodup_candidates ix selector
  rw [nearest_eq]
  have hkept := hslots.sublist ((List.filter_sublist (p := fun x => !x.1.isNaN)).map Prod.snd)
  have hsorted := ((List.mergeSort_perm _ (inOrder ix.metric)).map Prod.snd).nodup_iff.mpr hkept
  exact hsorted.sublist ((List.take_sublist k _).map Prod.snd)

/-- What search has to find for one query: the first `k` of all candidates, sorted by score and slot
with the NaN scores left out, each under the label of its slot. -/
structure Answers (ix : Index) (selector : Option Selector) (k : Nat) (q : List Score)
    (found : List Hit) : Prop where
  best : (found.map fun hit => (hit.distance, some hit.label)) =
    ((((scored ix.store q (ix.candidates selector)).filter fun x => !x.1.isNaN).mergeSort
      (inOrder ix.metric)).take k).map fun x => (x.1, ix.store.labelOf? x.2)
  labels_nodup : (found.map Hit.label).Nodup
  resolves : ∀ hit ∈ found, ∃ slot, ix.store.slotOf? hit.label = some slot ∧
    ix.store.labelOf? slot = some hit.label ∧
    (∀ sel, selector = some sel → sel.accepts hit.label = true) ∧
    (ix.excludesTombstones = true → ix.store.isDeleted slot = false)

theorem answers_nearest (h : ix.Coherent) (selector : Option Selector) (k : Nat) (q : List Score) :
    ix.Answers selector k q
      (ix.hits (nearest ix.metric k (scored ix.store q (ix.candidates selector)))) := by
  refine ⟨?_, nodup_labels h (nodup_slots_nearest ix selector k q), ?_⟩
  · rw [map_hits, nearest_eq]
    intro x hx
    exact exists_label_of_mem_candidates (mem_candidates_of_nearest hx)
  · intro hit hhit
    obtain ⟨x, hx, hl⟩ := exists_slot_of_mem_hits hhit
    obtain ⟨label, hl', haccepts, hlive⟩ :=
      isCandidate_iff.mp (mem_candidates.mp (mem_candidates_of_nearest hx))
    rw [hl] at hl'
    cases hl'
    exact ⟨x.2, (h.store.slotOf?_iff hit.label x.2).mpr hl, hl, haccepts, hlive⟩

/-- Search never fails on whole queries, and each answer is exhaustive. The candidates are the
slots in ascending order whose labels the selector accepts, dead ones only where tombstones are
included. -/
theorem search_exhaustive (h : ix.Reachable) (queries : List Score) (k : Nat)
    (selector : Option Selector) (hk : 1 ≤ k) (hq : queries.length % ix.dimension = 0)
    (hs : selector = none ∨ ix.metric = .l2 ∨ ix.metric = .innerProduct ∨ ix.metric = .jaccard) :
    ((ix.candidates selector).Pairwise (· < ·) ∧ ∀ slot, slot ∈ ix.candidates selector ↔
      ∃ label, ix.store.labelOf? slot = some label ∧
        (∀ sel, selector = some sel → sel.accepts label = true) ∧
        (ix.excludesTombstones = true → ix.store.isDeleted slot = false)) ∧
    ∃ answers, ix.search queries k selector = .ok answers ∧
      answers.length = queries.length / ix.dimension ∧
      List.Forall₂ (ix.Answers selector k) (Rows.split ix.dimension queries) answers := by
  refine ⟨⟨candidates_sorted ix selector, fun slot => mem_candidates.trans isCandidate_iff⟩,
    _, search_eq h.coherent hk hq hs, ?_, ?_⟩
  · rw [List.length_map, Rows.length_split]
  · rw [List.forall₂_map_right_iff, List.forall₂_same]
    intro q _
    exact answers_nearest h.coherent selector k q

/-- One of two freed slots is reused. Slots with equal scores come in their order under either sign
of the query, and the slot with a NaN never comes. -/
theorem search_exhaustive_recycled :
    let one : Single := ⟨0x3f800000⟩
    let two : Single := ⟨0x40000000⟩
    let nan : Single := ⟨0x7fc00000⟩
    let queries := [one.value, -two.value]
    let selector : Option Selector := some (.complement (.range 6 7))
    ∃ ix₀, Index.new .host 1 .innerProduct = .ok ix₀ ∧
      let ix := ix₀.run [.add [one, two, two, nan, one, two, two], .delete [0, 5], .add [two]]
      (ix.Reachable ∧ 1 ≤ 3 ∧ queries.length % ix.dimension = 0 ∧ ix.metric = .innerProduct) ∧
      ∃ answers, ix.search queries 3 selector = .ok answers ∧
        answers.map (·.map Hit.label) = [[7, 1, 2], [4, 7, 1]] ∧
        List.Forall₂ (ix.Answers selector 3) (Rows.split ix.dimension queries) answers := by
  intro one two nan queries selector
  have hnew : Index.new .host 1 .innerProduct =
      .ok { store := { memory := .host, codec := .flat 1, metric := .innerProduct } } := rfl
  refine ⟨_, hnew, ?_⟩
  intro ix
  have hr : ix.Reachable := (Reachable.new hnew).run _
  have hmetric : ix.metric = .innerProduct := by decide +kernel
  have hrows : queries.length % ix.dimension = 0 := by decide +kernel
  have hlabels : (ix.search queries 3 selector).toOption.map (·.map (·.map Hit.label)) =
      some [[7, 1, 2], [4, 7, 1]] := by decide +kernel
  obtain ⟨-, answers, hsearch, -, hanswers⟩ := search_exhaustive hr queries 3 selector (by decide)
    hrows (Or.inr (Or.inr (Or.inl hmetric)))
  rw [hsearch] at hlabels
  exact ⟨⟨hr, by decide, hrows, hmetric⟩, answers, hsearch, Option.some.inj hlabels, hanswers⟩

end ExactNeighbors.Index
