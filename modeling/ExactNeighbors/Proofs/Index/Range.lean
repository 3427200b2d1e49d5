import ExactNeighbors.Proofs.Index.Search

/-! # Range search is nearest-neighbour search without a bound

Range search selects by radius and then sorts, nearest-neighbour search ranks negated scores and
drops NaN. With room for every slot the second finds all that the first can find, in the same order.
-/
namespace ExactNeighbors.Index

variable {ix : Index} {k : Nat}

theorem rangeSearch_eq_map (h : ix.Coherent) (hm : ix.metric.isPrimary = true)
    (queries : List Score) (radius : Score) (selector : Option Selector) :
    ix.rangeSearch queries radius selector = (ix.queryCount queries).map fun _ =>
      (Rows.split ix.dimension queries).map fun q =>
        ix.hits (((scored ix.store q (ix.candidates selector)).filter fun x =>
          within ix.metric radius x.1).mergeSort (inOrder ix.metric)) := by
  unfold rangeSearch
  rw [if_neg (by rw [hm]; decide), scanAll_eq h.store]
  dsimp only [bind, Except.bind, pure, Except.pure]
  rw [List.map_map]
  cases ix.queryCount queries with
  | error e => rfl
  | ok count => rfl

theorem rangeSearch_eq_error (hm : ix.metric.isPrimary = false) (queries : List Score)
    (radius : Score) (selector : Option Selector) :
    ix.rangeSearch queries radius selector =
      .error (.unsupportedMetric ix.metric .rangeSearch) := by
  unfold rangeSearch
  rw [hm]
  rfl

theorem rangeSearch_eq_filter (h : ix.Coherent) (hm : ix.metric.isPrimary = true)
    (queries : List Score) (radius : Score) (selector : Option Selector)
    (hk : max 1 ix.store.physical ≤ k) :
    ix.rangeSearch queries radius selector = (ix.search queries k selector).map
      (List.map (List.filter fun hit => within ix.metric radius hit.distance)) := by
  have hs : selector = none ∨ ix.metric = .l2 ∨ ix.metric = .innerProduct ∨
      ix.metric = .jaccard := by
    cases hmetric : ix.metric <;> rw [hmetric] at hm <;> simp [Metric.isPrimary] at hm ⊢
  rw [rangeSearch_eq_map h hm, search_eq_map h queries (by omega) hs]
  cases ix.queryCount queries with
  | error e => rfl
  | ok count =>
    dsimp only [Except.map]
    rw [List.map_map]
    congr 1
    apply List.map_congr_left
    intro q _
    have hall := (length_scored_candidates_le ix q selector).trans ((Nat.le_max_right 1 _).trans hk)
    rw [sort_within hall]
    exact hits_filter (fun hit => within ix.metric radius hit.distance) (fun _ _ _ _ => rfl) _

/-- For the primary metrics range search succeeds exactly when nearest-neighbour search with room
for every slot does, and finds those of its hits that are strictly on the good side of the radius,
in the same order. -/
theorem rangeSearch_eq_filter_search (h : ix.Reachable) (queries : List Score) (radius : Score)
    (selector : Option Selector) (hk : max 1 ix.store.physical ≤ k) :
    (ix.metric = .l2 → ix.rangeSearch queries radius selector = (ix.search queries k selector).map
      (List.map (List.filter fun hit => hit.distance < radius))) ∧
    (ix.metric = .innerProduct → ix.rangeSearch queries radius selector =
      (ix.search queries k selector).map (List.map (List.filter fun hit => radius < hit.distance))) := by
  have hrange := fun hm => rangeSearch_eq_filter h.coherent hm queries radius selector hk
  constructor
  · intro hm
    rw [hm] at hrange
    exact hrange rfl
  · intro hm
    rw [hm] at hrange
    exact hrange rfl

/-- A NaN is left out, and the zero of the slot behind the first four is the negative one. -/
theorem rangeSearch_eq_filter_search_zeros :
    let one : Single := ⟨0x3f800000⟩
    let minusOne : Single := ⟨0xbf800000⟩
    let two : Single := ⟨0x40000000⟩
    let minusZero : Single := ⟨0x80000000⟩
    let nan : Single := ⟨0x7fc00000⟩
    let queries := [one.value]
    let radius := -Score.half
    ∃ ix₀, Index.new .host 1 .innerProduct = .ok ix₀ ∧
      let ix := ix₀.run [.add [one, minusOne, nan, minusZero, minusZero, two]]
      (ix.Reachable ∧ max 1 ix.store.physical ≤ 6 ∧ ix.metric = .innerProduct) ∧
      ix.rangeSearch queries radius none = (ix.search queries 6 none).map
        (List.map (List.filter fun hit => radius < hit.distance)) ∧
      (ix.rangeSearch queries radius none).toOption.map (·.map (·.map Hit.label)) =
        some [[5, 0, 3, 4]] := by
  intro one minusOne two minusZero nan queries radius
  have hnew : Index.new .host 1 .innerProduct =
      .ok { store := { memory := .host, codec := .flat 1, metric := .innerProduct } } := rfl
  refine ⟨_, hnew, ?_⟩
  intro ix
  have hr : ix.Reachable := (Reachable.new hnew).run _
  have hk : max 1 ix.store.physical ≤ 6 := by decide +kernel
  have hmetric : ix.metric = .innerProduct := by decide +kernel
  obtain ⟨-, hinner⟩ := rangeSearch_eq_filter_search hr queries radius none hk
  refine ⟨⟨hr, hk, hmetric⟩, hinner hmetric, ?_⟩
  -- A sort does not evaluate inside the kernel, the search on the other side does.
  rw [hinner hmetric]
  decide +kernel

end ExactNeighbors.Index
