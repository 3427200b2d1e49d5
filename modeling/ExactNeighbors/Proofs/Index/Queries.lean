import ExactNeighbors.Proofs.Index.Range
import ExactNeighbors.Proofs.Index.SubsetScores

/-! # Queries do not see each other

All queries of a call share one computer, which is bound to one query after the other. No answer
depends on what the computer was bound to before, so that a call on two buffers of queries answers
what the calls on each of them answer.
-/
namespace ExactNeighbors

namespace Index

variable {β : Type} {ix : Index} {a b : List Score} {k : Nat} {selector : Option Selector}
variable {c d : List (Option Nat)}

def ByQuery (ix : Index) (call : List Score → Except IndexError (List β))
    (one : List Score → β) : Prop :=
  ∀ queries, queries.length % ix.dimension = 0 →
    call queries = .ok ((Rows.split ix.dimension queries).map one)

def joined (first second : Except IndexError (List β)) : Except IndexError (List β) := do
  return (← first) ++ (← second)

theorem joined_eq_ok_iff {x y : Except IndexError (List β)} {both : List β} :
    joined x y = .ok both ↔
      ∃ first second, x = .ok first ∧ y = .ok second ∧ both = first ++ second := by
  cases x with
  | error e => simp [joined, bind, Except.bind]
  | ok first =>
    cases y with
    | error e => simp [joined, bind, Except.bind]
    | ok second => simp [joined, bind, Except.bind, pure, Except.pure, eq_comm]

theorem ByQuery.append {call : List Score → Except IndexError (List β)} {one : List Score → β}
    (h : ix.ByQuery call one) (hdim : 0 < ix.dimension) (ha : a.length % ix.dimension = 0)
    (hb : b.length % ix.dimension = 0) :
    ∃ first second, call a = .ok first ∧ call b = .ok second ∧
      call (a ++ b) = .ok (first ++ second) := by
  refine ⟨_, _, h a ha, h b hb, ?_⟩
  rw [h _ (Rows.mod_append ha hb), Rows.split_append_of_mod hdim ha, List.map_append]

theorem byQuery_search (h : ix.Coherent) (hk : 1 ≤ k)
    (hs : selector = none ∨ ix.metric = .l2 ∨ ix.metric = .innerProduct ∨ ix.metric = .jaccard) :
    ix.ByQuery (ix.search · k selector) fun q =>
      ix.hits (nearest ix.metric k (scored ix.store q (ix.candidates selector))) :=
  fun _ hq => search_eq h hk hq hs

theorem byQuery_rangeSearch (h : ix.Coherent) (hm : ix.metric.isPrimary = true) (radius : Score)
    (selector : Option Selector) : ix.ByQuery (ix.rangeSearch · radius selector) fun q =>
      ix.hits (((scored ix.store q (ix.candidates selector)).filter fun x =>
        within ix.metric radius x.1).mergeSort (inOrder ix.metric)) := by
  intro queries hq
  refine (rangeSearch_eq_map h hm queries radius selector).trans ?_
  rw [queryCount_whole hq]
  rfl

/-- The candidates of the second buffer stay beside its queries, as those of the first fill whole
rows. -/
theorem subsetScores_append (hdim : 0 < ix.dimension) (hk : 0 < k)
    (ha : a.length % ix.dimension = 0) (hc : c.length = a.length / ix.dimension * k) :
    ix.subsetScores (a ++ b) k (c ++ d) = ix.subsetScores a k c ++ ix.subsetScores b k d := by
  have hrows : (Rows.split ix.dimension a).length = (Rows.split k c).length := by
    rw [Rows.length_split, Rows.length_split_whole hk hc]
  rw [subsetScores, Rows.split_append_of_mod hdim ha, Rows.split_append_whole hk hc,
    List.zip_append hrows, List.flatMap_append]
  rfl

/-- The first fault of the two calls is that of the call on both. -/
theorem subsetFault?_append (hdim : 0 < ix.dimension) (ha : a.length % ix.dimension = 0)
    (hb : b.length % ix.dimension = 0) (hc : c.length = a.length / ix.dimension * k)
    (hd : d.length = b.length / ix.dimension * k) (hsize : (c ++ d).length < Word.size) :
    ix.subsetFault? (a ++ b) k (c ++ d) =
      (ix.subsetFault? a k c).or (ix.subsetFault? b k d) := by
  have hboth : (c ++ d).length = (a ++ b).length / ix.dimension * k := by
    rw [Rows.count_append hdim ha, Nat.add_mul, List.length_append, hc, hd]
  have hlength : (c ++ d).length = c.length + d.length := List.length_append
  unfold subsetFault?
  dsimp only
  by_cases hm : ix.metric.isPrimary = true
  · by_cases hk : k = 0
    · simp [hm, hk]
    · have hc' : c.length < Word.size := by omega
      have hd' : d.length < Word.size := by omega
      simp only [hm, hk, Rows.mod_append ha hb, ha, hb, ← hboth, ← hc, ← hd, Nat.not_le.mpr hsize,
        Nat.not_le.mpr hc', Nat.not_le.mpr hd', List.filterMap_append, List.find?_append,
        Option.map_or, Bool.not_true, Bool.false_eq_true, ne_eq, not_true_eq_false, ↓reduceIte]
  · simp [hm]

theorem scoreSlotSubset_append (h : ix.Coherent) (ha : a.length % ix.dimension = 0)
    (hb : b.length % ix.dimension = 0) (hc : c.length = a.length / ix.dimension * k)
    (hd : d.length = b.length / ix.dimension * k) (hsize : (c ++ d).length < Word.size) :
    ix.scoreSlotSubset (a ++ b) k (c ++ d) =
      joined (ix.scoreSlotSubset a k c) (ix.scoreSlotSubset b k d) := by
  have hdim : 0 < ix.dimension := h.store.dimension_pos
  have hfault := subsetFault?_append hdim ha hb hc hd hsize
  rw [scoreSlotSubset_eq h, scoreSlotSubset_eq h, scoreSlotSubset_eq h, hfault]
  cases hfirst : ix.subsetFault? a k c with
  | some e => rfl
  | none =>
    cases hsecond : ix.subsetFault? b k d with
    | some e => rfl
    | none =>
      have hk := (subsetFault?_eq_none_iff.mp hfirst).2.1
      rw [subsetScores_append hdim (Nat.pos_of_ne_zero hk) ha hc]
      rfl

theorem resolveCandidate_eq_ok {candidate slot : Option Nat}
    (h : ix.resolveCandidate candidate = .ok slot) : slot = candidate.bind ix.store.slotOf? := by
  cases candidate with
  | none =>
    cases h
    rfl
  | some label =>
    rw [resolveCandidate, Store.resolve] at h
    cases hs : ix.store.slotOf? label with
    | none =>
      rw [hs] at h
      cases h
    | some place =>
      rw [hs] at h
      cases h
      exact hs.symm

theorem eq_map_of_resolved {slots : List (Option Nat)}
    (hslots : c.mapM ix.resolveCandidate = .ok slots) :
    slots = c.map (·.bind ix.store.slotOf?) := by
  induction c generalizing slots with
  | nil =>
    cases hslots
    rfl
  | cons candidate c ih =>
    rw [List.mapM_cons] at hslots
    cases hfirst : ix.resolveCandidate candidate with
    | error e =>
      rw [hfirst] at hslots
      cases hslots
    | ok slot =>
      cases hothers : c.mapM ix.resolveCandidate with
      | error e =>
        rw [hfirst, hothers] at hslots
        cases hslots
      | ok others =>
        rw [hfirst, hothers] at hslots
        cases hslots
        rw [List.map_cons, ← ih hothers, ← resolveCandidate_eq_ok hfirst]

theorem lt_physical_of_resolved (h : ix.Coherent) {slots : List (Option Nat)}
    (hslots : c.mapM ix.resolveCandidate = .ok slots) {slot : Nat} (hm : some slot ∈ slots) :
    slot < ix.store.physical := by
  rw [eq_map_of_resolved hslots] at hm
  obtain ⟨candidate, -, hslot⟩ := List.mem_map.mp hm
  obtain ⟨label, -, hs⟩ := Option.bind_eq_some_iff.mp hslot
  exact h.store.lt_physical_of_slotOf? hs

/-- Labels of the second buffer that do not resolve are found before the first is scored. This does
not show, as the first cannot be refused once its own labels are resolved. -/
theorem scoreLabelSubset_append (h : ix.Coherent) (hm : ix.metric.isPrimary = true)
    (ha : a.length % ix.dimension = 0) (hb : b.length % ix.dimension = 0)
    (hc : c.length = a.length / ix.dimension * k) (hd : d.length = b.length / ix.dimension * k)
    (hsize : (c ++ d).length < Word.size) :
    ix.scoreLabelSubset (a ++ b) k (c ++ d) =
      joined (ix.scoreLabelSubset a k c) (ix.scoreLabelSubset b k d) := by
  rw [scoreLabelSubset_eq, scoreLabelSubset_eq, scoreLabelSubset_eq, List.mapM_append]
  cases hfirst : c.mapM ix.resolveCandidate with
  | error e => rfl
  | ok cs =>
    have hcs : cs.length = c.length := by rw [eq_map_of_resolved hfirst, List.length_map]
    cases hsecond : d.mapM ix.resolveCandidate with
    | error e =>
      have hk : k ≠ 0 := by
        rintro rfl
        rw [List.length_eq_zero_iff.mp hd] at hsecond
        cases hsecond
      have hnone : ix.subsetFault? a k cs = none := by
        rw [List.length_append] at hsize
        exact subsetFault?_eq_none_iff.mpr ⟨hm, hk, ha, by omega, hcs.trans hc,
          fun slot hslot => lt_physical_of_resolved h hfirst hslot⟩
      change Except.error e = joined (ix.scoreSlotSubset a k cs) (.error e)
      rw [scoreSlotSubset_eq h, hnone]
      rfl
    | ok ds =>
      have hds : ds.length = d.length := by rw [eq_map_of_resolved hsecond, List.length_map]
      have hboth : (cs ++ ds).length = (c ++ d).length := by
        rw [List.length_append, List.length_append, hcs, hds]
      exact scoreSlotSubset_append h ha hb (hcs.trans hc) (hds.trans hd) (hboth ▸ hsize)

theorem scoreLabelSubset_ne_ok (h : ix.Coherent) (hm : ¬ix.metric.isPrimary = true)
    {scores : List Score} : ix.scoreLabelSubset a k c ≠ .ok scores := by
  rw [scoreLabelSubset_eq]
  cases c.mapM ix.resolveCandidate with
  | error e => simp [Except.bind]
  | ok slots => simp [Except.bind, scoreSlotSubset_eq h, subsetFault?, hm]

/-- Whatever the first buffer of queries leaves behind, the second is answered as if it were alone:
a search, a range search or the scoring of given candidates for both buffers gives the answers for
the first and then those for the second. -/
theorem queries_independent (h : ix.Reachable) (ha : a.length % ix.dimension = 0)
    (hb : b.length % ix.dimension = 0) :
    (∀ k selector, 1 ≤ k →
      (selector = none ∨ ix.metric = .l2 ∨ ix.metric = .innerProduct ∨ ix.metric = .jaccard) →
      ∃ first second, ix.search a k selector = .ok first ∧ ix.search b k selector = .ok second ∧
        ix.search (a ++ b) k selector = .ok (first ++ second)) ∧
    (∀ radius selector, ix.metric = .l2 ∨ ix.metric = .innerProduct →
      ∃ first second, ix.rangeSearch a radius selector = .ok first ∧
        ix.rangeSearch b radius selector = .ok second ∧
        ix.rangeSearch (a ++ b) radius selector = .ok (first ++ second)) ∧
    ∀ k c d, c.length = a.length / ix.dimension * k → d.length = b.length / ix.dimension * k →
      (c ++ d).length < Word.size →
      ix.scoreSlotSubset (a ++ b) k (c ++ d) =
        joined (ix.scoreSlotSubset a k c) (ix.scoreSlotSubset b k d) ∧
      (ix.metric = .l2 ∨ ix.metric = .innerProduct → ix.scoreLabelSubset (a ++ b) k (c ++ d) =
        joined (ix.scoreLabelSubset a k c) (ix.scoreLabelSubset b k d)) ∧
      ∀ scores, ix.scoreLabelSubset (a ++ b) k (c ++ d) = .ok scores ↔
        ∃ first second, ix.scoreLabelSubset a k c = .ok first ∧
          ix.scoreLabelSubset b k d = .ok second ∧ scores = first ++ second := by
  have hix := h.coherent
  have hdim : 0 < ix.dimension := hix.store.dimension_pos
  refine ⟨?_, ?_, ?_⟩
  · intro k selector hk hs
    exact (byQuery_search hix hk hs).append hdim ha hb
  · intro radius selector hm
    exact (byQuery_rangeSearch hix (isPrimary_iff.mpr hm) radius selector).append hdim ha hb
  · intro k c d hc hd hsize
    refine ⟨scoreSlotSubset_append hix ha hb hc hd hsize, fun hm => ?_, fun scores => ?_⟩
    · exact scoreLabelSubset_append hix (isPrimary_iff.mpr hm) ha hb hc hd hsize
    · by_cases hm : ix.metric.isPrimary = true
      · rw [scoreLabelSubset_append hix hm ha hb hc hd hsize, joined_eq_ok_iff]
      · constructor
        · intro hscores
          exact absurd hscores (scoreLabelSubset_ne_ok hix hm)
        · rintro ⟨first, second, hfirst, -, -⟩
          exact absurd hfirst (scoreLabelSubset_ne_ok hix hm)

/-- The second buffer has a query of its own sign and a NaN. Label 0 is retired, so that it cannot
be scored in either way. -/
theorem queries_independent_rebound :
    let one : Single := ⟨0x3f800000⟩
    let two : Single := ⟨0x40000000⟩
    let nan : Single := ⟨0x7fc00000⟩
    let a := [one.value]
    let b := [-two.value, nan.value]
    let selector : Option Selector := some (.complement (.range 6 7))
    let c := [some 7, none]
    let d := [some 5, some 4, none, some 0]
    ∃ ix₀, Index.new .host 1 .innerProduct = .ok ix₀ ∧
      let ix := ix₀.run [.add [one, two, two, nan, one, two, two], .delete [0, 5], .add [two]]
      (ix.Reachable ∧ a.length % ix.dimension = 0 ∧ b.length % ix.dimension = 0 ∧
        ix.metric = .innerProduct ∧ c.length = a.length / ix.dimension * 2 ∧
        d.length = b.length / ix.dimension * 2 ∧ (c ++ d).length < Word.size) ∧
      (∃ first second, ix.search a 3 selector = .ok first ∧ ix.search b 3 selector = .ok second ∧
        ix.search (a ++ b) 3 selector = .ok (first ++ second) ∧
        (first ++ second).map (·.map Hit.label) = [[7, 1, 2], [4, 7, 1], []]) ∧
      ix.scoreSlotSubset (a ++ b) 2 (c ++ d) =
        joined (ix.scoreSlotSubset a 2 c) (ix.scoreSlotSubset b 2 d) ∧
      ∀ scores, ix.scoreLabelSubset (a ++ b) 2 (c ++ d) ≠ .ok scores := by
  intro one two nan a b selector c d
  have hnew : Index.new .host 1 .innerProduct =
      .ok { store := { memory := .host, codec := .flat 1, metric := .innerProduct } } := rfl
  refine ⟨_, hnew, ?_⟩
  intro ix
  have hr : ix.Reachable := (Reachable.new hnew).run _
  have hmetric : ix.metric = .innerProduct := by decide +kernel
  have ha : a.length % ix.dimension = 0 := by decide +kernel
  have hb : b.length % ix.dimension = 0 := by decide +kernel
  have hc : c.length = a.length / ix.dimension * 2 := by decide +kernel
  have hd : d.length = b.length / ix.dimension * 2 := by decide +kernel
  have hsize : (c ++ d).length < Word.size := by decide
  have hlabels : (ix.search (a ++ b) 3 selector).toOption.map (·.map (·.map Hit.label)) =
      some [[7, 1, 2], [4, 7, 1], []] := by decide +kernel
  have hretired : (ix.scoreLabelSubset b 2 d).toOption = none := by decide +kernel
  obtain ⟨hsearch, -, hsubset⟩ := queries_independent hr ha hb
  obtain ⟨first, second, hfirst, hsecond, hboth⟩ :=
    hsearch 3 selector (by decide) (Or.inr (Or.inr (Or.inl hmetric)))
  obtain ⟨hslots, -, hscores⟩ := hsubset 2 c d hc hd hsize
  rw [hboth] at hlabels
  refine ⟨⟨hr, ha, hb, hmetric, hc, hd, hsize⟩,
    ⟨first, second, hfirst, hsecond, hboth, Option.some.inj hlabels⟩, hslots, ?_⟩
  intro scores hok
  obtain ⟨_, _, -, hrefused, -⟩ := (hscores scores).mp hok
  rw [hrefused] at hretired
  cases hretired

end Index
end ExactNeighbors
