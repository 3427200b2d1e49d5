import ExactNeighbors.Proofs.Computer
import ExactNeighbors.Proofs.Number.Commute
import ExactNeighbors.Proofs.Store.Run

/-! # Distances of stored pairs

Every metric scores two vectors of the same length alike in both orders. Most are sums of terms that
do so. The divergence adds two logarithms in the order of its arguments, after `0.0`; the ratio of
smaller to larger components may take one zero for the other, which its sums forget; and only the
length of the first vector is asked for by the distance that skips missing components.
-/
namespace ExactNeighbors

namespace Distance

open Score

variable {term : Score → Score → Score} {x y : List Score}

theorem gap_comm (x y : Score) : gap x y = gap y x := (sameSize_sub x y).abs_eq

theorem squaredGap_comm (x y : Score) : squaredGap x y = squaredGap y x :=
  (sameSize_sub x y).mul_self_eq

theorem forall₂_zipWith_swap {α β : Type} {R : β → β → Prop} {f : α → α → β}
    (h : ∀ a b, R (f a b) (f b a)) (x y : List α) :
    List.Forall₂ R (x.zipWith f y) (y.zipWith f x) := by
  induction x generalizing y with
  | nil => simp
  | cons a x ih =>
    cases y with
    | nil => simp
    | cons b y => exact .cons (h a b) (ih y)

/-! ## Terms -/

theorem canberraTerm?_comm (x y : Score) : canberraTerm? x y = canberraTerm? y x := by
  simp [canberraTerm?, add_comm x.abs y.abs, gap_comm x y]

/-- After `0.0` the order of two terms does not matter. -/
theorem add_right_comm (x y : Score) : zero + x + y = zero + y + x := by
  have hzero : zero + y ≠ negZero := add_ne_negZero zero_ne_negZero y
  have hzero' : zero + x ≠ negZero := add_ne_negZero zero_ne_negZero x
  by_cases hx : x = negZero
  · rw [hx, zero_add_negZero, add_isZero hzero (Or.inr rfl)]
  · by_cases hy : y = negZero
    · rw [hy, zero_add_negZero, add_isZero hzero' (Or.inr rfl)]
    · rw [zero_add_of_ne hx, zero_add_of_ne hy, add_comm]

theorem divergence_comm (x y m : Score) :
    divergence y m (divergence x m zero) = divergence x m (divergence y m zero) := by
  unfold divergence
  by_cases hx : x > zero <;> by_cases hy : y > zero
  · simp only [hx, hy, if_true]
    exact add_right_comm _ _
  all_goals simp [hx, hy]

theorem jensenShannonTerm_comm (x y : Score) : jensenShannonTerm x y = jensenShannonTerm y x := by
  unfold jensenShannonTerm
  rw [add_comm y x]
  exact divergence_comm x y _

/-! ## Metrics -/

theorem canberra_comm (x y : List Score) : canberra x y = canberra y x := by
  unfold canberra
  rw [← List.zip_swap y x, List.filterMap_map]
  congr 2
  funext ⟨a, b⟩
  exact canberraTerm?_comm b a

theorem brayCurtis_comm (x y : List Score) : brayCurtis x y = brayCurtis y x := by
  unfold brayCurtis quotient
  rw [List.zipWith_comm_of_comm gap_comm,
    List.zipWith_comm_of_comm fun a b => congrArg Float32.abs (add_comm a b)]

theorem jaccard_comm (x y : List Score) : jaccard x y = jaccard y x := by
  unfold jaccard quotient
  have hsmaller := forall₂_zipWith_swap (fun a b => (extremes_comm a b).2) x y
  have hlarger := forall₂_zipWith_swap (fun a b => (extremes_comm a b).1) x y
  rw [total_eq_of_alike hsmaller zero_ne_negZero, total_eq_of_alike hlarger zero_ne_negZero]

theorem filter_zip_comm (x y : List Score) {keep : Score × Score → Bool}
    (hkeep : ∀ pair, keep pair.swap = keep pair) :
    (y.zip x).filter keep = ((x.zip y).filter keep).map Prod.swap := by
  have hswap : keep ∘ Prod.swap = keep := funext hkeep
  rw [← List.zip_swap x y, List.filter_map, hswap]

theorem nanEuclidean_comm (h : x.length = y.length) : nanEuclidean x y = nanEuclidean y x := by
  unfold nanEuclidean
  rw [filter_zip_comm x y fun _ => Bool.and_comm _ _, h]
  simp only [List.isEmpty_map, List.length_map, List.map_map]
  congr 6
  funext ⟨a, b⟩
  exact squaredGap_comm a b

end Distance

open Distance in
theorem Metric.distance_comm (m : Metric) {x y : List Score} (h : x.length = y.length) :
    m.distance x y = m.distance y x := by
  cases m with
  | l2 => exact congrArg _ (List.zipWith_comm_of_comm squaredGap_comm)
  | innerProduct => exact congrArg _ (List.zipWith_comm_of_comm Score.mul_comm)
  | l1 => exact congrArg _ (List.zipWith_comm_of_comm gap_comm)
  | linf => exact congrArg _ (List.zipWith_comm_of_comm gap_comm)
  | lp p => exact congrArg _ (List.zipWith_comm_of_comm fun a b => by rw [gap_comm])
  | canberra => exact canberra_comm x y
  | brayCurtis => exact brayCurtis_comm x y
  | jensenShannon =>
    exact congrArg (fun terms => Score.half * Score.total Score.negZero terms)
      (List.zipWith_comm_of_comm jensenShannonTerm_comm)
  | jaccard => exact jaccard_comm x y
  | nanEuclidean => exact nanEuclidean_comm h

theorem Adapter.kernel_eq (a : Adapter) : a.kernel = a.metric.distance := by
  cases a <;> rfl

namespace Computer

variable {s : Store Single} {i j : Nat}

theorem symmetric_eq (h : s.Coherent) (a : Adapter) (hi : i < s.physical) (hj : j < s.physical) :
    symmetric s a i j = .ok (a.metric.distance (s.vectorAt j) (s.vectorAt i)) := by
  rw [symmetric, h.values_eq hi, h.values_eq hj, ← a.kernel_eq]
  rfl

/-- Every metric gives two vectors of the same length the same bits in both orders, so that in every
store that calls can lead to the score of two slots does not depend on which of them is named
first, for every way of scoring. -/
theorem symmetric_both_ways :
    (∀ (m : Metric) (x y : List Score), x.length = y.length → m.distance x y = m.distance y x) ∧
    ∀ (memory : Memory) (dimension : Nat) (metric : Metric) (s₀ : Store Single),
      Store.new memory (.flat dimension) metric = .ok s₀ →
      ∀ (calls : List Store.Call) (a : Adapter) (i j : Nat),
        let s := s₀.run calls
        i < s.physical → j < s.physical →
        ∃ score, symmetric s a i j = .ok score ∧ symmetric s a j i = .ok score := by
  refine ⟨fun m x y h => m.distance_comm h, fun memory dimension metric s₀ hnew calls a i j hi hj => ?_⟩
  have h := ((Store.coherent_of_new hnew).run calls).1
  have hlength := (h.length_vectorAt hj).trans (h.length_vectorAt hi).symm
  exact ⟨_, symmetric_eq h a hi hj,
    (symmetric_eq h a hj hi).trans (congrArg _ (a.metric.distance_comm hlength.symm))⟩

/-- The smaller of two zeros is the first one, but the sums of the ratio do not show it. -/
theorem symmetric_both_ways_zeros :
    let row : List Single := [⟨0⟩, ⟨0x3f800000⟩]
    let row' : List Single := [⟨0x80000000⟩, ⟨0x40000000⟩]
    Score.smaller Score.zero Score.negZero ≠ Score.smaller Score.negZero Score.zero ∧
      (row.map Single.value).length = (row'.map Single.value).length ∧
      Metric.jaccard.distance (row.map Single.value) (row'.map Single.value) =
        Metric.jaccard.distance (row'.map Single.value) (row.map Single.value) ∧
      ∃ s₀, Store.new .host (.flat 2) .jaccard = .ok s₀ ∧
        let s := s₀.run [.add (row ++ row')]
        0 < s.physical ∧ 1 < s.physical ∧
          ∃ score, symmetric s (.plain .jaccard) 0 1 = .ok score ∧
            symmetric s (.plain .jaccard) 1 0 = .ok score := by
  intro row row'
  obtain ⟨s₀, hnew⟩ : ∃ s₀, Store.new .host (.flat 2) .jaccard = .ok s₀ := ⟨_, rfl⟩
  have hrun := symmetric_both_ways.2 .host 2 .jaccard s₀ hnew [.add (row ++ row')] (.plain .jaccard) 0 1
  refine ⟨by decide, rfl, symmetric_both_ways.1 .jaccard _ _ rfl, s₀, hnew, ?_⟩
  cases hnew
  exact ⟨by decide, by decide, hrun (by decide) (by decide)⟩

end Computer
end ExactNeighbors
