import ExactNeighbors.Proofs.Index.Range
import ExactNeighbors.Proofs.Store.Rebuild

/-! # Search sees candidates only

The score of a slot depends on its code, and the order of hits on the order of their slots. So two
indexes answer alike when their candidates have the same codes from the first to the last: whatever
the slots are in which these stand, whatever else is stored, and whatever the indexes went through.
-/
namespace ExactNeighbors.Index

variable {ix jx : Index} {sel sel' : Option Selector} {place rename : Nat → Nat}

def candidateLabels (ix : Index) (selector : Option Selector) : List Nat :=
  (ix.candidates selector).filterMap ix.store.labelOf?

def relabel (rename : Nat → Nat) (hit : Hit) : Hit := { hit with label := rename hit.label }

/-- What the second index finds is what the first one finds, under other labels. -/
structure AnswersAlike (ix : Index) (sel : Option Selector) (jx : Index) (sel' : Option Selector)
    (rename : Nat → Nat) : Prop where
  search_eq : ∀ queries k, jx.search queries k sel' =
    (ix.search queries k sel).map (List.map (List.map (relabel rename)))
  rangeSearch_eq : ∀ queries radius, jx.rangeSearch queries radius sel' =
    (ix.rangeSearch queries radius sel).map (List.map (List.map (relabel rename)))

structure Renumbered (ix : Index) (sel : Option Selector) (jx : Index) (sel' : Option Selector)
    (place rename : Nat → Nat) : Prop where
  metric_eq : jx.metric = ix.metric
  dimension_eq : jx.dimension = ix.dimension
  candidates_eq : jx.candidates sel' = (ix.candidates sel).map place
  codeOf_eq : ∀ slot ∈ ix.candidates sel, jx.store.codeOf (place slot) = ix.store.codeOf slot
  labelOf?_eq : ∀ slot ∈ ix.candidates sel,
    jx.store.labelOf? (place slot) = (ix.store.labelOf? slot).map rename

namespace Renumbered

theorem strictMonoOn (r : Renumbered ix sel jx sel' place rename) :
    StrictMonoOn place {slot | slot ∈ ix.candidates sel} := by
  have hsorted := candidates_sorted ix sel
  have hplaces := candidates_sorted jx sel'
  rw [r.candidates_eq, List.pairwise_map] at hplaces
  -- The places of the candidates ascend along the list, and so do the candidates themselves.
  intro i hi j hj hij
  obtain ⟨a, ha, rfl⟩ := List.mem_iff_getElem.mp hi
  obtain ⟨b, hb, rfl⟩ := List.mem_iff_getElem.mp hj
  rcases Nat.lt_trichotomy a b with hab | rfl | hab
  · exact List.pairwise_iff_getElem.mp hplaces a b ha hb hab
  · exact absurd hij (Nat.lt_irrefl _)
  · exact absurd (List.pairwise_iff_getElem.mp hsorted b a hb ha hab) (Nat.lt_asymm hij)

theorem scored_eq (r : Renumbered ix sel jx sel' place rename) (q : List Score) :
    scored jx.store q (jx.candidates sel') =
      (scored ix.store q (ix.candidates sel)).map (moved place) := by
  have hmetric : jx.store.metric = ix.store.metric := r.metric_eq
  have hvectors : ((ix.candidates sel).map place).map jx.store.vectorAt =
      (ix.candidates sel).map ix.store.vectorAt := by
    rw [List.map_map]
    apply List.map_congr_left
    intro slot hslot
    exact congrArg (List.map Single.value) (r.codeOf_eq slot hslot)
  rw [scored, r.candidates_eq, hvectors, hmetric, List.zip_map_right]
  rfl

theorem hits_eq (r : Renumbered ix sel jx sel' place rename) {found : List Scored}
    (hfound : ∀ x ∈ found, x.2 ∈ ix.candidates sel) :
    jx.hits (found.map (moved place)) = (ix.hits found).map (relabel rename) := by
  rw [hits, List.filterMap_map, hits, List.map_filterMap]
  apply List.filterMap_congr
  intro x hx
  simp only [Function.comp_def, moved, r.labelOf?_eq x.2 (hfound x hx), Option.map_map]
  rfl

theorem answersAlike (h : ix.Coherent) (h' : jx.Coherent)
    (r : Renumbered ix sel jx sel' place rename)
    (hs : ∀ k, refusal? ix.metric k sel' = refusal? ix.metric k sel) :
    AnswersAlike ix sel jx sel' rename := by
  have hcount := queryCount_congr r.dimension_eq
  have hslots : ∀ q, (scored ix.store q (ix.candidates sel)).map Prod.snd = ix.candidates sel :=
    fun q => map_snd_scored ix.store q _
  constructor
  case search_eq =>
    intro queries k
    rw [search_eq_match h', search_eq_match h, r.metric_eq, hs, r.dimension_eq, hcount]
    cases refusal? ix.metric k sel with
    | some e => rfl
    | none =>
      cases ix.queryCount queries with
      | error e => rfl
      | ok count =>
        simp only [Except.map, List.map_map]
        congr 1
        apply List.map_congr_left
        intro q _
        rw [r.scored_eq, nearest_moved (by rw [hslots]; exact r.strictMonoOn), r.hits_eq]
        · rfl
        · intro x hx
          exact mem_candidates_of_nearest hx
  case rangeSearch_eq =>
    intro queries radius
    cases hm : ix.metric.isPrimary with
    | false =>
      rw [rangeSearch_eq_error (r.metric_eq ▸ hm), rangeSearch_eq_error hm, r.metric_eq]
      rfl
    | true =>
      rw [rangeSearch_eq_map h' (r.metric_eq ▸ hm), rangeSearch_eq_map h hm, r.metric_eq,
        r.dimension_eq, hcount]
      cases ix.queryCount queries with
      | error e => rfl
      | ok count =>
        simp only [Except.map, List.map_map]
        congr 1
        apply List.map_congr_left
        intro q _
        rw [r.scored_eq, sort_filter_moved (within ix.metric radius)
          (by rw [hslots]; exact r.strictMonoOn), r.hits_eq]
        · rfl
        · intro x hx
          exact mem_candidates_of_sorted hx

end Renumbered

theorem map_code_candidates (h : ix.Coherent) (sel : Option Selector) :
    (ix.candidates sel).map ix.store.code =
      ((ix.candidates sel).map ix.store.codeOf).map Except.ok := by
  rw [List.map_map]
  apply List.map_congr_left
  intro slot hslot
  exact h.store.code_eq (lt_physical_of_mem_candidates hslot)

theorem map_labelOf?_candidates (ix : Index) (sel : Option Selector) :
    (ix.candidates sel).map ix.store.labelOf? = (ix.candidateLabels sel).map some := by
  rw [candidateLabels, List.map_filterMap_some_eq_filter_map_isSome, List.filter_eq_self.mpr]
  intro label? hl
  obtain ⟨slot, hslot, rfl⟩ := List.mem_map.mp hl
  obtain ⟨label, hlabel⟩ := exists_label_of_mem_candidates hslot
  rw [hlabel]
  rfl

theorem nodup_candidateLabels (h : ix.Coherent) (sel : Option Selector) :
    (ix.candidateLabels sel).Nodup :=
  nodup_filterMap_labelOf? h (nodup_candidates ix sel)

theorem length_candidateLabels (ix : Index) (sel : Option Selector) :
    (ix.candidateLabels sel).length = (ix.candidates sel).length := by
  have hlength := congrArg List.length (map_labelOf?_candidates ix sel)
  rw [List.length_map, List.length_map] at hlength
  exact hlength.symm

theorem exists_map_eq {xs ys : List Nat} (hnodup : xs.Nodup) (hlength : xs.length = ys.length) :
    ∃ f : Nat → Nat, ys = xs.map f := by
  refine ⟨fun x => ys.getD (xs.idxOf x) 0, ?_⟩
  apply List.ext_getElem (by simp [hlength])
  intro i hi hx
  have hi' : i < xs.length := by omega
  simp [hnodup.idxOf_getElem i hi', hi]

/-- Equal codes from the first candidate to the last make a renumbering. -/
theorem exists_renumbered (h : ix.Coherent) (h' : jx.Coherent) (hm : jx.metric = ix.metric)
    (hd : jx.dimension = ix.dimension)
    (hcodes : (ix.candidates sel).map ix.store.code = (jx.candidates sel').map jx.store.code) :
    ∃ place rename, (ix.candidateLabels sel).map rename = jx.candidateLabels sel' ∧
      Renumbered ix sel jx sel' place rename := by
  have hlength : (ix.candidates sel).length = (jx.candidates sel').length := by
    simpa using congrArg List.length hcodes
  obtain ⟨place, hplace⟩ := exists_map_eq (nodup_candidates ix sel) hlength
  have hlabels : (ix.candidateLabels sel).length = (jx.candidateLabels sel').length := by
    rw [length_candidateLabels, length_candidateLabels, hlength]
  obtain ⟨rename, hrename⟩ := exists_map_eq (nodup_candidateLabels h sel) hlabels
  refine ⟨place, rename, hrename.symm, hm, hd, hplace, ?_, ?_⟩
  · intro slot hslot
    rw [map_code_candidates h, map_code_candidates h', hplace, List.map_map, List.map_map,
      List.map_map, List.map_inj_left] at hcodes
    exact (Except.ok.inj (hcodes slot hslot)).symm
  · have hlabels : ((ix.candidates sel).map place).map jx.store.labelOf? =
        ((ix.candidates sel).map ix.store.labelOf?).map (Option.map rename) := by
      rw [← hplace, map_labelOf?_candidates, map_labelOf?_candidates, hrename, List.map_map,
        List.map_map]
      rfl
    rw [List.map_map, List.map_map, List.map_inj_left] at hlabels
    exact hlabels

/-- The label and the code of every slot that is not dead, ascending. -/
def liveContents (ix : Index) : List (Option Nat × Except IndexError (List Single)) :=
  ((List.range ix.store.physical).filter fun slot => !ix.store.isDeleted slot).map fun slot =>
    (ix.store.labelOf? slot, ix.store.code slot)

theorem candidates_none (he : ix.excludesTombstones = true) :
    ix.candidates none = (List.range ix.store.physical).filter fun slot =>
      !ix.store.isDeleted slot := by
  apply List.filter_congr
  intro slot hslot
  obtain ⟨label, hlabel⟩ := Store.exists_labelOf? (List.mem_range.mp hslot)
  cases hdead : ix.store.isDeleted slot <;> simp [isCandidate, he, hdead, hlabel]

theorem liveContents_eq (h : ix.Coherent) (he : ix.excludesTombstones = true) :
    ix.liveContents = ((ix.candidates none).map fun slot =>
      (ix.store.labelOf? slot, ix.store.codeOf slot)).map (Prod.map id Except.ok) := by
  rw [liveContents, ← candidates_none he, List.map_map]
  apply List.map_congr_left
  intro slot hslot
  rw [h.store.code_eq (lt_physical_of_mem_candidates hslot)]
  rfl

/-- Indexes that leave dead slots out and have the same live ones. -/
theorem exists_renumbered_of_live (h : ix.Coherent) (h' : jx.Coherent) (hm : jx.metric = ix.metric)
    (hd : jx.dimension = ix.dimension) (he : ix.excludesTombstones = true)
    (he' : jx.excludesTombstones = true) (hlive : ix.liveContents = jx.liveContents)
    (sel : Option Selector) : ∃ place, Renumbered ix sel jx sel place id := by
  rw [liveContents_eq h he, liveContents_eq h' he'] at hlive
  have hlength : (ix.candidates none).length = (jx.candidates none).length := by
    simpa using congrArg List.length hlive
  obtain ⟨place, hplace⟩ := exists_map_eq (nodup_candidates ix none) hlength
  -- The selector comes last: it judges labels, and these agree place by place.
  have hsame : ∀ slot ∈ ix.candidates none,
      ix.store.labelOf? slot = jx.store.labelOf? (place slot) ∧
        ix.store.codeOf slot = jx.store.codeOf (place slot) := by
    rw [hplace, List.map_map, List.map_map, List.map_map, List.map_inj_left] at hlive
    intro slot hslot
    obtain ⟨hlabel, hcode⟩ := Prod.mk.inj (hlive slot hslot)
    exact ⟨hlabel, Except.ok.inj hcode⟩
  have hsub : ∀ slot ∈ ix.candidates sel, slot ∈ ix.candidates none := by
    intro slot hslot
    rw [candidates_eq_filter] at hslot
    exact (List.mem_filter.mp hslot).1
  refine ⟨place, hm, hd, ?_, ?_, ?_⟩
  · rw [candidates_eq_filter jx, hplace, List.filter_map, candidates_eq_filter ix sel]
    congr 1
    apply List.filter_congr
    intro slot hslot
    rw [Function.comp_apply, (hsame slot hslot).1]
  · intro slot hslot
    exact (hsame slot (hsub slot hslot)).2.symm
  · intro slot hslot
    rw [Option.map_id, (hsame slot (hsub slot hslot)).1]
    rfl

/-- Tombstones that are not left out are not looked at. -/
theorem renumbered_of_markDeleted (h : ix.Coherent) (he : ix.excludesTombstones = false)
    {labels : List Nat} {pending : Nat} (hmark : ix.markDeleted labels = .ok (pending, jx))
    (sel : Option Selector) : Renumbered ix sel jx sel id id := by
  obtain ⟨t, hs, rfl⟩ := exists_store_of_markDeleted hmark
  obtain ⟨-, -, hb⟩ := Store.buried_of_markDeleted h.store hs
  constructor
  case metric_eq => exact hb.metric_eq
  case dimension_eq => exact congrArg Codec.dimension hb.codec_eq
  case candidates_eq =>
    rw [List.map_id, candidates, candidates, hb.physical_eq]
    apply List.filter_congr
    intro slot _
    simp only [isCandidate, he, Bool.false_and, hb.labelOf?_eq]
  case codeOf_eq =>
    intro slot _
    exact hb.codeOf_eq slot
  case labelOf?_eq =>
    intro slot _
    rw [Option.map_id]
    exact hb.labelOf?_eq slot

theorem candidates_of_filled {t : Store Single} {rows : List (List Single)}
    (ht : Store.Filled rows t) :
    candidates { store := t } none = List.range rows.length ∧
      candidateLabels { store := t } none = List.range rows.length := by
  have hphysical : t.physical = rows.length := by
    rw [Store.physical, ht.labels_eq, List.length_range]
  have hlabel : ∀ slot ∈ List.range rows.length, t.labelOf? slot = some slot := by
    intro slot hslot
    rw [Store.labelOf?, ht.labels_eq, List.getElem?_range (List.mem_range.mp hslot)]
  have hcandidates : candidates { store := t } none = List.range rows.length := by
    rw [candidates, hphysical, List.filter_eq_self]
    intro slot hslot
    exact isCandidate_iff.mpr ⟨slot, hlabel slot hslot, by simp, fun _ => ht.isDeleted_eq slot⟩
  refine ⟨hcandidates, ?_⟩
  rw [candidateLabels, hcandidates, List.filterMap_congr hlabel, List.filterMap_some]

/-- The vectors of the candidates, inserted into an empty index, are its candidates. -/
theorem exists_rebuilt (h : ix.Reachable) (sel : Option Selector) :
    ∃ jx₀ rows labels jx, Index.new ix.store.memory ix.dimension ix.metric = .ok jx₀ ∧
      (ix.candidates sel).mapM ix.store.reconstructSlot = .ok rows ∧
      jx₀.add rows.flatten = .ok (labels, jx) ∧ jx.metric = ix.metric ∧
      jx.dimension = ix.dimension ∧ jx.candidateLabels none = labels ∧
      (ix.candidates sel).map ix.store.code = (jx.candidates none).map jx.store.code := by
  have hcodec := h.coherent.codec_eq
  have hstore := h.coherent.store
  have hslots : ∀ slot ∈ ix.candidates sel, slot < ix.store.physical :=
    fun slot => lt_physical_of_mem_candidates
  obtain ⟨t, hadd, htcodec, htmetric, ht⟩ :=
    Store.add_copies hstore h.coherent.fits hcodec hslots (length_candidates_le ix sel)
  have hnew : Index.new ix.store.memory ix.dimension ix.metric =
      .ok { store := ix.store.reset } := by
    have hempty : Store.new ix.store.memory ix.store.codec ix.metric = .ok ix.store.reset :=
      Store.new_eq _ _ hstore.dimension_pos hstore.codeLength_pos
    rw [Index.new, ← hcodec, hempty]
    rfl
  have hjadd : Index.add { store := ix.store.reset }
      ((ix.candidates sel).map ix.store.codeOf).flatten =
      .ok (List.range (ix.candidates sel).length, { store := t }) := by
    rw [Index.add, hadd]
    rfl
  have hj : Index.Coherent { store := t } := ((Reachable.new hnew).add hjadd).coherent
  obtain ⟨hcandidates, hlabels⟩ := candidates_of_filled ht
  rw [List.length_map] at hcandidates hlabels
  refine ⟨_, _, _, _, hnew,
    Store.mapM_reconstructSlot hstore h.coherent.fits hcodec hslots, hjadd, htmetric,
    congrArg Codec.dimension htcodec, hlabels, ?_⟩
  have hcodes := ht.codes_eq
  rw [List.length_map] at hcodes
  rw [map_code_candidates h.coherent, map_code_candidates hj, hcandidates]
  exact congrArg (List.map Except.ok) hcodes.symm

theorem map_relabel_id (answers : Except IndexError (List (List Hit))) :
    answers.map (List.map (List.map (relabel id))) = answers := by
  have hid : relabel id = id := rfl
  rw [hid, List.map_id_fun, List.map_id_fun]
  cases answers <;> rfl

theorem refusal?_congr {m : Metric}
    (hs : sel = none ∨ m = .l2 ∨ m = .innerProduct ∨ m = .jaccard)
    (hs' : sel' = none ∨ m = .l2 ∨ m = .innerProduct ∨ m = .jaccard) (k : Nat) :
    refusal? m k sel' = refusal? m k sel := by
  rcases Nat.eq_zero_or_pos k with rfl | hk
  · rfl
  · rw [refusal?_eq_none hk hs, refusal?_eq_none hk hs']

theorem exists_answersAlike (h : ix.Coherent) (h' : jx.Coherent) (hm : jx.metric = ix.metric)
    (hd : jx.dimension = ix.dimension)
    (hs : sel = none ∨ ix.metric = .l2 ∨ ix.metric = .innerProduct ∨ ix.metric = .jaccard)
    (hs' : sel' = none ∨ jx.metric = .l2 ∨ jx.metric = .innerProduct ∨ jx.metric = .jaccard)
    (hcodes : (ix.candidates sel).map ix.store.code = (jx.candidates sel').map jx.store.code) :
    ∃ rename, (ix.candidateLabels sel).map rename = jx.candidateLabels sel' ∧
      AnswersAlike ix sel jx sel' rename := by
  obtain ⟨place, rename, hrename, r⟩ := exists_renumbered h h' hm hd hcodes
  rw [hm] at hs'
  exact ⟨rename, hrename, r.answersAlike h h' (refusal?_congr hs hs')⟩

theorem Renumbered.answers_eq (h : ix.Coherent) (h' : jx.Coherent)
    (r : Renumbered ix sel jx sel place id) (queries : List Score) (k : Nat) (radius : Score) :
    jx.search queries k sel = ix.search queries k sel ∧
      jx.rangeSearch queries radius sel = ix.rangeSearch queries radius sel := by
  have halike := r.answersAlike h h' fun k => rfl
  rw [halike.search_eq, map_relabel_id, halike.rangeSearch_eq, map_relabel_id]
  exact ⟨rfl, rfl⟩

/-- Search sees nothing of an index but its candidates, their codes in the order of their slots:
where these agree, so do the answers, each hit under the label that has the same place. So dead
slots do not matter where they are left out, and to mark labels as deleted does not where they are
not; and an index that is built anew from the vectors of the candidates answers as the old one. -/
theorem search_visible :
    (∀ (ix jx : Index) (sel sel' : Option Selector), ix.Reachable → jx.Reachable →
      jx.metric = ix.metric → jx.dimension = ix.dimension →
      (sel = none ∨ ix.metric = .l2 ∨ ix.metric = .innerProduct ∨ ix.metric = .jaccard) →
      (sel' = none ∨ jx.metric = .l2 ∨ jx.metric = .innerProduct ∨ jx.metric = .jaccard) →
      (ix.candidates sel).map ix.store.code = (jx.candidates sel').map jx.store.code →
      ∃ rename, (ix.candidateLabels sel).map rename = jx.candidateLabels sel' ∧
        AnswersAlike ix sel jx sel' rename) ∧
    (∀ ix jx : Index, ix.Reachable → jx.Reachable → jx.metric = ix.metric →
      jx.dimension = ix.dimension → ix.excludesTombstones = true → jx.excludesTombstones = true →
      ix.liveContents = jx.liveContents → ∀ selector queries k radius,
        jx.search queries k selector = ix.search queries k selector ∧
        jx.rangeSearch queries radius selector = ix.rangeSearch queries radius selector) ∧
    (∀ (ix jx : Index) (labels : List Nat) (pending : Nat), ix.Reachable →
      ix.excludesTombstones = false → ix.markDeleted labels = .ok (pending, jx) →
      ∀ selector queries k radius,
        jx.search queries k selector = ix.search queries k selector ∧
        jx.rangeSearch queries radius selector = ix.rangeSearch queries radius selector) ∧
    (∀ (ix : Index) (sel : Option Selector), ix.Reachable →
      (sel = none ∨ ix.metric = .l2 ∨ ix.metric = .innerProduct ∨ ix.metric = .jaccard) →
      ∃ jx₀ rows labels jx, Index.new ix.store.memory ix.dimension ix.metric = .ok jx₀ ∧
        (ix.candidates sel).mapM ix.store.reconstructSlot = .ok rows ∧
        jx₀.add rows.flatten = .ok (labels, jx) ∧
        ∃ rename, (ix.candidateLabels sel).map rename = labels ∧
          AnswersAlike ix sel jx none rename) := by
  refine ⟨?codes, ?live, ?marked, ?rebuilt⟩
  case codes =>
    intro ix jx sel sel' h h' hm hd hs hs' hcodes
    exact exists_answersAlike h.coherent h'.coherent hm hd hs hs' hcodes
  case live =>
    intro ix jx h h' hm hd he he' hlive selector queries k radius
    obtain ⟨place, r⟩ :=
      exists_renumbered_of_live h.coherent h'.coherent hm hd he he' hlive selector
    exact r.answers_eq h.coherent h'.coherent queries k radius
  case marked =>
    intro ix jx labels pending h he hmark selector queries k radius
    have r := renumbered_of_markDeleted h.coherent he hmark selector
    exact r.answers_eq h.coherent (h.markDeleted hmark).coherent queries k radius
  case rebuilt =>
    intro ix sel h hs
    obtain ⟨jx₀, rows, labels, jx, hnew, hrows, hadd, hm, hd, rfl, hcodes⟩ := exists_rebuilt h sel
    have hj := ((Reachable.new hnew).add hadd).coherent
    obtain ⟨rename, hrename, halike⟩ :=
      exists_answersAlike h.coherent hj hm hd hs (Or.inl rfl) hcodes
    exact ⟨jx₀, rows, _, jx, hnew, hrows, hadd, rename, hrename, halike⟩

/-- A selector skips what the other history has overwritten, dead slots differ in their number and
their contents, a label is deleted while tombstones do not count, and what is selected is copied. -/
theorem search_visible_histories :
    let one : Single := ⟨0x3f800000⟩
    let two : Single := ⟨0x40000000⟩
    let three : Single := ⟨0x40400000⟩
    let sel : Option Selector := some (.complement (.range 1 2))
    ∃ ix₀, Index.new .host 1 .l2 = .ok ix₀ ∧
      let ix := ix₀.run [.add [one, two, three, two]]
      let jx := ix₀.run [.add [two], .delete [0], .add [one, three, two]]
      let few := ix₀.run [.add [one, two], .delete [1]]
      let many := ix₀.run [.add [one, three, two], .delete [2, 1]]
      let lax : Index := { ix with excludesTombstones := false }
      (ix.Reachable ∧ jx.Reachable ∧ ix.metric = .l2 ∧ jx.metric = .l2 ∧
        (ix.candidates sel).map ix.store.code = (jx.candidates none).map jx.store.code ∧
        ∃ rename, [0, 2, 3].map rename = [1, 2, 3] ∧ AnswersAlike ix sel jx none rename) ∧
      (few.liveContents = many.liveContents ∧ ∀ selector queries k radius,
        many.search queries k selector = few.search queries k selector ∧
        many.rangeSearch queries radius selector = few.rangeSearch queries radius selector) ∧
      (∃ kx, lax.markDeleted [0] = .ok (1, kx) ∧ ∀ selector queries k radius,
        kx.search queries k selector = lax.search queries k selector ∧
        kx.rangeSearch queries radius selector = lax.rangeSearch queries radius selector) ∧
      ∃ jx₀ rows labels kx rename, Index.new .host 1 .l2 = .ok jx₀ ∧
        (ix.candidates sel).mapM ix.store.reconstructSlot = .ok rows ∧
        jx₀.add rows.flatten = .ok (labels, kx) ∧ [0, 2, 3].map rename = labels ∧
        AnswersAlike ix sel kx none rename := by
  intro one two three sel
  have hnew : Index.new .host 1 .l2 =
      .ok { store := { memory := .host, codec := .flat 1, metric := .l2 } } := rfl
  refine ⟨_, hnew, ?_⟩
  intro ix jx few many lax
  obtain ⟨hcodes, hlive, hmarked, hrebuilt⟩ := search_visible
  have hix : ix.Reachable := (Reachable.new hnew).run _
  have hjx : jx.Reachable := (Reachable.new hnew).run _
  have hfew : few.Reachable := (Reachable.new hnew).run _
  have hmany : many.Reachable := (Reachable.new hnew).run _
  have hlax : lax.Reachable := hix.excludeTombstones false
  have hl2 : ix.metric = .l2 ∧ jx.metric = .l2 := ⟨by decide +kernel, by decide +kernel⟩
  have hlabels : ix.candidateLabels sel = [0, 2, 3] ∧ jx.candidateLabels none = [1, 2, 3] :=
    ⟨by decide +kernel, by decide +kernel⟩
  have hsame : (ix.candidates sel).map ix.store.code = (jx.candidates none).map jx.store.code := by
    rw [map_code_candidates hix.coherent, map_code_candidates hjx.coherent]
    exact congrArg (List.map Except.ok) (by decide +kernel)
  have hcontents : few.liveContents = many.liveContents := by
    rw [liveContents_eq hfew.coherent (by decide +kernel),
      liveContents_eq hmany.coherent (by decide +kernel)]
    exact congrArg (List.map (Prod.map id Except.ok)) (by decide +kernel)
  have hpending : lax.store.pending = 0 := by decide +kernel
  obtain ⟨kx, hmark⟩ := markDeleted_eq_ok hlax.coherent.store
    (by decide +kernel : lax.store.Deletable [0])
  rw [hpending] at hmark
  refine ⟨⟨hix, hjx, hl2.1, hl2.2, hsame, ?_⟩, ⟨hcontents, ?_⟩, ⟨kx, hmark, ?_⟩, ?_⟩
  · rw [← hlabels.1, ← hlabels.2]
    exact hcodes ix jx sel none hix hjx (by decide +kernel) (by decide +kernel)
      (Or.inr (Or.inl hl2.1)) (Or.inl rfl) hsame
  · exact hlive few many hfew hmany (by decide +kernel) (by decide +kernel) (by decide +kernel)
      (by decide +kernel) hcontents
  · exact hmarked lax kx [0] 1 hlax rfl hmark
  · rw [← hlabels.1]
    obtain ⟨jx₀, rows, labels, kx, hjx₀, hrows, hadd, rename, hrename, halike⟩ :=
      hrebuilt ix sel hix (Or.inr (Or.inl hl2.1))
    have hmemory : ix.store.memory = .host := (coherent_of_new hnew).store.memory_run _
    have hdimension : ix.dimension = 1 := by decide +kernel
    rw [hmemory, hdimension, hl2.1] at hjx₀
    exact ⟨jx₀, rows, labels, kx, rename, hjx₀, hrows, hadd, hrename, halike⟩

end ExactNeighbors.Index
