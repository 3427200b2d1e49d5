import ExactNeighbors.Proofs.Index.Lanes
import ExactNeighbors.Proofs.Index.Visible

/-! # To restrict is to filter

When candidates are left out, the others move up: from one lane of a block to another, and from a
block to the rest that is scored one by one. Squared distances do not show it, although blocks are
summed from `0.0` and single slots from `-0.0`, and of the other metrics only the inner product has
lanes. So what is found among some of the candidates comes first among the same of what is found
among all.
-/
namespace ExactNeighbors

namespace Metric

variable {m : Metric} {q : List Score} {ys : List (List Score)}

/-- A score does not depend on where its vector comes in the scan. -/
theorem scores_eq_map (hm : m ≠ .innerProduct) (hq : 0 < q.length)
    (hys : ∀ y ∈ ys, y.length = q.length) : m.scores q ys = ys.map (m.distance q) := by
  have hlane : (ys.take (4 * (ys.length / 4))).map (m.laneDistance q) =
      (ys.take (4 * (ys.length / 4))).map (m.distance q) := by
    apply List.map_congr_left
    intro y hy
    exact laneDistance_eq hm hq (hys y (List.mem_of_mem_take hy))
  rw [scores_eq hys, hlane, ← List.map_append, List.take_append_drop]

end Metric

namespace Index

variable {ix jx : Index} {sel sel' : Option Selector} {k k' : Nat} {p : Nat → Bool}

theorem scored_eq_map {s : Store Single} {q : List Score} {slots : List Nat}
    (hm : s.metric ≠ .innerProduct) (hq : 0 < q.length)
    (hslots : ∀ slot ∈ slots, (s.vectorAt slot).length = q.length) :
    scored s q slots = slots.map fun slot => (s.metric.distance q (s.vectorAt slot), slot) := by
  have hvectors : ∀ y ∈ slots.map s.vectorAt, y.length = q.length := by
    intro y hy
    obtain ⟨slot, hslot, rfl⟩ := List.mem_map.mp hy
    exact hslots slot hslot
  rw [scored, Metric.scores_eq_map hm hq hvectors, List.map_map, List.map_prod_right_eq_zip]
  rfl

structure Narrowed (ix : Index) (sel : Option Selector) (jx : Index) (sel' : Option Selector)
    (p : Nat → Bool) : Prop where
  metric_eq : jx.metric = ix.metric
  dimension_eq : jx.dimension = ix.dimension
  codeOf_eq : ∀ slot, jx.store.codeOf slot = ix.store.codeOf slot
  labelOf?_eq : ∀ slot, jx.store.labelOf? slot = ix.store.labelOf? slot
  candidates_eq : jx.candidates sel' =
    (ix.candidates sel).filter fun slot => (ix.store.labelOf? slot).any p

namespace Narrowed

theorem scored_eq (h : ix.Coherent) (hm : ix.metric ≠ .innerProduct)
    (n : Narrowed ix sel jx sel' p) {q : List Score} (hq : q.length = ix.dimension) :
    scored jx.store q (jx.candidates sel') = (scored ix.store q (ix.candidates sel)).filter
      fun x => (ix.store.labelOf? x.2).any p := by
  have hpos : 0 < q.length := hq ▸ h.store.dimension_pos
  have hvectors : jx.store.vectorAt = ix.store.vectorAt := by
    funext slot
    exact congrArg (List.map Single.value) (n.codeOf_eq slot)
  have hmetric : jx.store.metric = ix.store.metric := n.metric_eq
  have hlength : ∀ slot ∈ ix.candidates sel, (ix.store.vectorAt slot).length = q.length := by
    intro slot hslot
    rw [h.length_vectorAt (lt_physical_of_mem_candidates hslot), hq]
  have hlength' : ∀ slot ∈ jx.candidates sel', (jx.store.vectorAt slot).length = q.length := by
    intro slot hslot
    rw [n.candidates_eq] at hslot
    rw [hvectors]
    exact hlength slot (List.mem_filter.mp hslot).1
  rw [scored_eq_map (hmetric ▸ hm) hpos hlength', scored_eq_map hm hpos hlength, hvectors, hmetric,
    n.candidates_eq, List.filter_map]
  rfl

theorem hits_eq (n : Narrowed ix sel jx sel' p) (found : List Scored) :
    jx.hits found = ix.hits found := by
  have hlabels : jx.store.labelOf? = ix.store.labelOf? := funext n.labelOf?_eq
  rw [hits, hlabels, hits]

end Narrowed

theorem Narrowed.search_eq (h : ix.Coherent) (h' : jx.Coherent) (hm : ix.metric ≠ .innerProduct)
    (n : Narrowed ix none jx sel' p) (hk : 1 ≤ k) (hk' : max 1 ix.store.physical ≤ k')
    (hs : sel' = none ∨ ix.metric = .l2 ∨ ix.metric = .innerProduct ∨ ix.metric = .jaccard)
    (queries : List Score) :
    jx.search queries k sel' = (ix.search queries k' none).map
      (List.map fun found => (found.filter fun hit => p hit.label).take k) := by
  rw [search_eq_map h' queries hk (n.metric_eq ▸ hs), search_eq_map h queries (by omega) (Or.inl rfl),
    queryCount_congr n.dimension_eq, n.metric_eq, n.dimension_eq]
  cases ix.queryCount queries with
  | error e => rfl
  | ok count =>
    dsimp only [Except.map]
    rw [List.map_map]
    congr 1
    apply List.map_congr_left
    intro q hq
    -- There is room for all candidates, so that only the test and the last bound drop any.
    have hall := (length_scored_candidates_le ix q none).trans ((Nat.le_max_right 1 _).trans hk')
    have htest : ∀ (score : Score) (slot label : Nat), ix.store.labelOf? slot = some label →
        ((ix.store.labelOf? slot).any p) = p label := by
      intro score slot label hl
      rw [hl]
      rfl
    calc jx.hits (nearest ix.metric k (scored jx.store q (jx.candidates sel')))
        = ix.hits (((nearest ix.metric k' (scored ix.store q (ix.candidates none))).filter
            fun x => (ix.store.labelOf? x.2).any p).take k) := by
          rw [n.hits_eq, n.scored_eq h hm (Rows.length_of_mem_split hq), nearest_filter hall]
      _ = (ix.hits ((nearest ix.metric k' (scored ix.store q (ix.candidates none))).filter
            fun x => (ix.store.labelOf? x.2).any p)).take k := by
          apply hits_take
          intro x hx
          exact exists_label_of_mem_candidates
            (mem_candidates_of_nearest (List.mem_filter.mp hx).1)
      _ = _ := by
          rw [hits_filter (fun hit => p hit.label) htest]
          rfl

/-- A selector takes the labels that it accepts. -/
theorem narrowed_of_selector (ix : Index) (sel : Selector) :
    Narrowed ix none ix (some sel) sel.accepts where
  metric_eq := rfl
  dimension_eq := rfl
  codeOf_eq _ := rfl
  labelOf?_eq _ := rfl
  candidates_eq := candidates_eq_filter ix (some sel)

/-- A deletion leaves the other labels, when tombstones are left out. -/
theorem narrowed_of_markDeleted (h : ix.Coherent) (he : ix.excludesTombstones = true)
    {labels : List Nat} {pending : Nat} (hmark : ix.markDeleted labels = .ok (pending, jx)) :
    Narrowed ix none jx none fun label => label ∉ labels := by
  obtain ⟨t, hs, rfl⟩ := exists_store_of_markDeleted hmark
  obtain ⟨-, -, hb⟩ := Store.buried_of_markDeleted h.store hs
  constructor
  case metric_eq => exact hb.metric_eq
  case dimension_eq => exact congrArg Codec.dimension hb.codec_eq
  case codeOf_eq => exact hb.codeOf_eq
  case labelOf?_eq => exact hb.labelOf?_eq
  case candidates_eq =>
    have hleft : candidates { ix with store := t } none =
        (List.range t.physical).filter fun slot => !t.isDeleted slot := candidates_none he
    rw [hleft, candidates_none he, hb.physical_eq, List.filter_filter]
    apply List.filter_congr
    intro slot hslot
    obtain ⟨own, hown⟩ := Store.exists_labelOf? (List.mem_range.mp hslot)
    have hnamed : (∃ label ∈ labels, ix.store.slotOf? label = some slot) ↔ own ∈ labels := by
      constructor
      · rintro ⟨label, hl, hs⟩
        rw [(h.store.slotOf?_iff label slot).mp hs] at hown
        exact Option.some.inj hown ▸ hl
      · intro hl
        exact ⟨own, hl, (h.store.slotOf?_iff own slot).mpr hown⟩
    have hdead : t.isDeleted slot = (ix.store.isDeleted slot || decide (own ∈ labels)) := by
      apply Bool.eq_iff_iff.mpr
      rw [hb.isDeleted_iff, hnamed, Bool.or_eq_true, decide_eq_true_eq]
    rw [hdead, hown, Option.any_some, Bool.not_or, Bool.and_comm, decide_not]

/-- Except with the inner product, to search among fewer vectors is to search among all and to drop
the others from what is found: those whose labels a selector refuses, with a metric that takes one,
and those that have been deleted, where tombstones are left out. -/
theorem search_restricted (h : ix.Reachable) (hm : ix.metric ≠ .innerProduct)
    (queries : List Score) (hk : 1 ≤ k) (hk' : max 1 ix.store.physical ≤ k') :
    (∀ sel : Selector, ix.metric = .l2 ∨ ix.metric = .jaccard →
      ix.search queries k (some sel) = (ix.search queries k' none).map
        (List.map fun found => (found.filter fun hit => sel.accepts hit.label).take k)) ∧
    (∀ (labels : List Nat) (pending : Nat) (jx : Index), ix.excludesTombstones = true →
      ix.markDeleted labels = .ok (pending, jx) →
      jx.search queries k none = (ix.search queries k' none).map
        (List.map fun found => (found.filter fun hit => hit.label ∉ labels).take k)) := by
  constructor
  · intro sel hs
    have haccepted : some sel = none ∨ ix.metric = .l2 ∨ ix.metric = .innerProduct ∨
        ix.metric = .jaccard := by
      rcases hs with hs | hs <;> simp [hs]
    exact (narrowed_of_selector ix sel).search_eq h.coherent h.coherent hm hk hk' haccepted queries
  · intro labels pending jx he hmark
    have n := narrowed_of_markDeleted h.coherent he hmark
    exact n.search_eq h.coherent (h.markDeleted hmark).coherent hm hk hk' (Or.inl rfl) queries

/-- The fifth vector is scored alone among all, and in the last lane of a block where the second one
is left out. -/
theorem search_restricted_lanes :
    let one : Single := ⟨0x3f800000⟩
    let two : Single := ⟨0x40000000⟩
    let three : Single := ⟨0x40400000⟩
    let queries := [one.value]
    let sel : Selector := .complement (.range 1 2)
    ∃ ix₀, Index.new .host 1 .l2 = .ok ix₀ ∧
      let ix := ix₀.run [.add [one, two, three, two, one]]
      (ix.Reachable ∧ ix.metric = .l2 ∧ 1 ≤ 3 ∧ max 1 ix.store.physical ≤ 5 ∧
        ix.excludesTombstones = true) ∧
      ix.search queries 3 (some sel) = (ix.search queries 5 none).map
        (List.map fun found => (found.filter fun hit => sel.accepts hit.label).take 3) ∧
      (ix.search queries 3 (some sel)).toOption.map (·.map (·.map Hit.label)) =
        some [[0, 4, 3]] ∧
      ∃ jx, ix.markDeleted [3, 0] = .ok (2, jx) ∧
        jx.search queries 3 none = (ix.search queries 5 none).map
          (List.map fun found => (found.filter fun hit => hit.label ∉ [3, 0]).take 3) ∧
        (jx.search queries 3 none).toOption.map (·.map (·.map Hit.label)) = some [[4, 1, 2]] := by
  intro one two three queries sel
  have hnew : Index.new .host 1 .l2 =
      .ok { store := { memory := .host, codec := .flat 1, metric := .l2 } } := rfl
  refine ⟨_, hnew, ?_⟩
  intro ix
  have hr : ix.Reachable := (Reachable.new hnew).run _
  have hmetric : ix.metric = .l2 := by decide +kernel
  have hm : ix.metric ≠ .innerProduct := by decide +kernel
  have hk' : max 1 ix.store.physical ≤ 5 := by decide +kernel
  obtain ⟨hselected, hdeleted⟩ := search_restricted hr hm queries (by decide : 1 ≤ 3) hk'
  have hexcludes : ix.excludesTombstones = true := rfl
  have hpending : ix.store.pending = 0 := by decide +kernel
  obtain ⟨jx, hmark⟩ := markDeleted_eq_ok hr.coherent.store
    (by decide +kernel : ix.store.Deletable [3, 0])
  rw [hpending] at hmark
  have hafter := hdeleted [3, 0] 2 jx hexcludes hmark
  refine ⟨⟨hr, hmetric, by decide, hk', hexcludes⟩, hselected sel (Or.inl hmetric),
    by decide +kernel, jx, hmark, hafter, ?_⟩
  rw [hafter]
  decide +kernel

end Index
end ExactNeighbors
