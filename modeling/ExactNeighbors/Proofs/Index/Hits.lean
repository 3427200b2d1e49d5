import ExactNeighbors.Proofs.Index.Lanes
import ExactNeighbors.Proofs.Index.Range

/-! # Hits and the slots behind them

Whichever search returns a hit, for one query or for one of several, there is a candidate slot
behind it that carries its label and has its score. Hits come in the order of their scores and slots.
-/
namespace ExactNeighbors.Index

variable {ix : Index} {selector : Option Selector} {q : List Score} {found : List Hit} {hit : Hit}

inductive Returns (ix : Index) (selector : Option Selector) (q : List Score) (found : List Hit) :
    Prop where
  | nearest {queries : List Score} {k i : Nat} {answers : List (List Hit)}
      (answers_eq : ix.search queries k selector = .ok answers)
      (query_eq : (Rows.split ix.dimension queries)[i]? = some q)
      (found_eq : answers[i]? = some found)
  | within {queries : List Score} {radius : Score} {i : Nat} {answers : List (List Hit)}
      (answers_eq : ix.rangeSearch queries radius selector = .ok answers)
      (query_eq : (Rows.split ix.dimension queries)[i]? = some q)
      (found_eq : answers[i]? = some found)

theorem eq_ok_of_toOption {α β : Type} {answer : Except α β} {x : β}
    (h : answer.toOption = some x) : answer = .ok x := by
  cases answer with
  | error e => cases h
  | ok y => exact congrArg _ (Option.some.inj h)

theorem eq_of_map_eq_ok {ε α β : Type} {r : Except ε α} {x y : β}
    (h : (r.map fun _ => x) = .ok y) : y = x := by
  cases r with
  | error e => cases h
  | ok _ => exact (Except.ok.inj h).symm

theorem answers_of_search (h : ix.Coherent) {queries : List Score} {k : Nat}
    {answers : List (List Hit)} (hsearch : ix.search queries k selector = .ok answers) :
    answers = (Rows.split ix.dimension queries).map fun q =>
      ix.hits (nearest ix.metric k (scored ix.store q (ix.candidates selector))) := by
  rw [search_eq_match h] at hsearch
  split at hsearch
  · cases hsearch
  · exact eq_of_map_eq_ok hsearch

theorem answers_of_rangeSearch (h : ix.Coherent) {queries : List Score} {radius : Score}
    {answers : List (List Hit)} (hrange : ix.rangeSearch queries radius selector = .ok answers) :
    answers = (Rows.split ix.dimension queries).map fun q =>
      ix.hits (((scored ix.store q (ix.candidates selector)).filter fun x =>
        within ix.metric radius x.1).mergeSort (inOrder ix.metric)) := by
  cases hm : ix.metric.isPrimary with
  | false =>
    rw [rangeSearch_eq_error hm] at hrange
    cases hrange
  | true =>
    rw [rangeSearch_eq_map h hm] at hrange
    exact eq_of_map_eq_ok hrange

/-- Either search keeps some of the scores, sorts them and returns the first ones. -/
theorem Returns.eq_hits (h : ix.Coherent) (hr : ix.Returns selector q found) :
    q.length = ix.dimension ∧ ∃ (p : Score → Bool) (n : Nat),
      (∀ score, p score = true → score.isNaN = false) ∧
      found = ix.hits ((((scored ix.store q (ix.candidates selector)).filter
        fun x => p x.1).mergeSort (inOrder ix.metric)).take n) := by
  cases hr with
  | nearest answers_eq query_eq found_eq =>
    rename_i k _ _
    rw [answers_of_search h answers_eq, List.getElem?_map, query_eq, Option.map_some,
      Option.some.injEq, nearest_eq] at found_eq
    refine ⟨Rows.length_of_mem_split (List.mem_of_getElem? query_eq), fun score => !score.isNaN, k,
      ?_, found_eq.symm⟩
    intro score hscore
    exact (Bool.not_eq_true' _).mp hscore
  | within answers_eq query_eq found_eq =>
    rename_i radius _ _
    rw [answers_of_rangeSearch h answers_eq, List.getElem?_map, query_eq, Option.map_some,
      Option.some.injEq] at found_eq
    refine ⟨Rows.length_of_mem_split (List.mem_of_getElem? query_eq),
      fun score => Index.within ix.metric radius score, ix.store.physical,
      fun _ hscore => isNaN_of_within hscore, ?_⟩
    rw [List.take_of_length_le, found_eq]
    rw [List.length_mergeSort]
    exact (List.length_filter_le _ _).trans (length_scored_candidates_le ix q selector)

theorem mem_hits {entries : List Scored} : hit ∈ ix.hits entries ↔
    ∃ slot, (hit.distance, slot) ∈ entries ∧ ix.store.labelOf? slot = some hit.label := by
  rw [hits, List.mem_filterMap]
  constructor
  · rintro ⟨⟨score, slot⟩, hx, hhit⟩
    obtain ⟨label, hl, rfl⟩ := Option.map_eq_some_iff.mp hhit
    exact ⟨slot, hx, hl⟩
  · rintro ⟨slot, hx, hl⟩
    exact ⟨_, hx, Option.map_eq_some_iff.mpr ⟨hit.label, hl, rfl⟩⟩

structure Reports (ix : Index) (selector : Option Selector) (q : List Score) (hit : Hit)
    (slot : Nat) : Prop where
  mem_candidates : slot ∈ ix.candidates selector
  labelOf?_eq : ix.store.labelOf? slot = some hit.label
  distance_eq : hit.distance = ix.scoreOf selector q slot
  isNaN_eq : hit.distance.isNaN = false

theorem Reports.lt_physical {slot : Nat} (hi : Reports ix selector q hit slot) :
    slot < ix.store.physical := lt_physical_of_mem_candidates hi.mem_candidates

theorem Reports.slotOf?_eq {slot : Nat} (h : ix.Coherent) (hi : Reports ix selector q hit slot) :
    ix.store.slotOf? hit.label = some slot :=
  (h.store.slotOf?_iff hit.label slot).mpr hi.labelOf?_eq

namespace Returns

theorem exists_reports (h : ix.Coherent) (hr : ix.Returns selector q found) (hhit : hit ∈ found) :
    ∃ slot, Reports ix selector q hit slot := by
  obtain ⟨hq, p, n, hp, rfl⟩ := hr.eq_hits h
  obtain ⟨slot, hx, hl⟩ := mem_hits.mp hhit
  have hsorted := (List.mergeSort_perm _ _).mem_iff.mp (List.mem_of_mem_take hx)
  obtain ⟨hmem, hkept⟩ := List.mem_filter.mp hsorted
  rw [scored_candidates h hq, List.mem_map] at hmem
  obtain ⟨candidate, hcandidate, hpair⟩ := hmem
  have hscore := congrArg Prod.fst hpair
  have hslot := congrArg Prod.snd hpair
  dsimp only at hscore hslot
  subst hslot
  exact ⟨candidate, hcandidate, hl, hscore.symm, hp hit.distance hkept⟩

theorem nodup_labels (h : ix.Coherent) (hr : ix.Returns selector q found) :
    (found.map Hit.label).Nodup := by
  obtain ⟨-, p, n, -, rfl⟩ := hr.eq_hits h
  apply Index.nodup_labels h
  have hslots : ((scored ix.store q (ix.candidates selector)).map Prod.snd).Nodup := by
    rw [map_snd_scored]
    exact nodup_candidates ix selector
  have hkept := hslots.sublist ((List.filter_sublist (p := fun x => p x.1)).map Prod.snd)
  have hsorted := ((List.mergeSort_perm _ (inOrder ix.metric)).map Prod.snd).nodup_iff.mpr hkept
  exact hsorted.sublist ((List.take_sublist n _).map Prod.snd)

/-- Of two hits the earlier one has the better score, or an equal score and the smaller slot. -/
theorem pairwise (h : ix.Coherent) (hr : ix.Returns selector q found) :
    found.Pairwise fun x y => ∀ i j, Reports ix selector q x i → Reports ix selector q y j →
      inOrder ix.metric (x.distance, i) (y.distance, j) = true := by
  obtain ⟨-, p, n, -, rfl⟩ := hr.eq_hits h
  rw [hits, List.pairwise_filterMap]
  refine ((pairwise_sort ix.metric _).sublist (List.take_sublist n _)).imp ?_
  rintro ⟨score, slot⟩ ⟨score', slot'⟩ hle x hx y hy i j hi hj
  obtain ⟨label, hl, rfl⟩ := Option.map_eq_some_iff.mp hx
  obtain ⟨label', hl', rfl⟩ := Option.map_eq_some_iff.mp hy
  have hslot := (h.store.slotOf?_iff label slot).mpr hl
  have hslot' := (h.store.slotOf?_iff label' slot').mpr hl'
  cases hslot.symm.trans (hi.slotOf?_eq h)
  cases hslot'.symm.trans (hj.slotOf?_eq h)
  exact hle

end Returns

def Precedes (found : List Hit) (a b : Nat) : Prop := [a, b].Sublist (found.map Hit.label)

instance (found : List Hit) (a b : Nat) : Decidable (Precedes found a b) :=
  inferInstanceAs (Decidable ([a, b].Sublist _))

theorem pair_sublist_or {α : Type} {x y : α} {xs : List α} (hx : x ∈ xs) (hy : y ∈ xs)
    (hne : x ≠ y) : [x, y].Sublist xs ∨ [y, x].Sublist xs := by
  obtain ⟨before, after, rfl⟩ := List.append_of_mem hx
  rcases List.mem_append.mp hy with hy | hy
  · right
    exact (List.singleton_sublist.mpr hy).append (List.singleton_sublist.mpr List.mem_cons_self)
  · left
    have hafter := (List.mem_cons.mp hy).resolve_left (Ne.symm hne)
    exact ((List.singleton_sublist.mpr hafter).cons_cons x).trans (List.sublist_append_right _ _)

/-- The order of two hits is that of their scores and slots. -/
theorem Returns.precedes_iff (h : ix.Coherent) (hr : ix.Returns selector q found) {x y : Hit}
    {i j : Nat} (hx : x ∈ found) (hy : y ∈ found) (hi : Reports ix selector q x i)
    (hj : Reports ix selector q y j) (hne : x.label ≠ y.label) :
    Precedes found x.label y.label ↔
      inOrder ix.metric (x.distance, i) (y.distance, j) = true := by
  have hpairs : ∀ u v i j, [u, v].Sublist found → Reports ix selector q u i →
      Reports ix selector q v j → inOrder ix.metric (u.distance, i) (v.distance, j) = true :=
    fun u v i j hsub => List.pairwise_iff_forall_sublist.mp (hr.pairwise h) hsub i j
  constructor
  · intro hbefore
    obtain ⟨pair, hsub, hpair⟩ := List.sublist_map_iff.mp hbefore
    have hinj := List.inj_on_of_nodup_map (hr.nodup_labels h)
    obtain ⟨x', rest, rfl, hx', hrest⟩ := List.map_eq_cons_iff.mp hpair.symm
    obtain ⟨y', rest, rfl, hy', hnil⟩ := List.map_eq_cons_iff.mp hrest
    rw [List.map_eq_nil_iff.mp hnil] at hsub
    cases hinj (hsub.subset (by simp)) hx hx'
    cases hinj (hsub.subset (by simp)) hy hy'
    exact hpairs _ _ i j hsub hi hj
  · intro hle
    have hne' : x ≠ y := fun he => hne (congrArg Hit.label he)
    rcases pair_sublist_or hx hy hne' with hsub | hsub
    · exact hsub.map Hit.label
    -- in the other order both would come first, and then they share a slot and its label
    · have hslots := congrArg Prod.snd (inOrder_antisymm hle (hpairs _ _ j i hsub hj hi))
      dsimp only at hslots
      have hlabel := hi.labelOf?_eq
      rw [hslots, hj.labelOf?_eq] at hlabel
      exact absurd (Option.some.inj hlabel).symm hne

end ExactNeighbors.Index
