import ExactNeighbors.Proofs.Computer
import ExactNeighbors.Proofs.Number.Sum

/-! # Lanes and single scores

A lane is summed from `0.0`, a single score from `-0.0`. This shows in nothing but the sign of a
zero, and there only where every product is `-0.0`. Four lanes are worth what one loop over the
positions gives that adds to four sums at every step and stops with the shortest operand.
-/
namespace ExactNeighbors

theorem Four.toList_map {α β : Type} (f : α → β) (x : Four α) :
    (x.map f).toList = x.toList.map f := rfl

theorem Four.map_congr {α β : Type} {f g : α → β} {x : Four α} (h : ∀ y ∈ x.toList, f y = g y) :
    x.map f = x.map g := by
  obtain ⟨a, b, c, d⟩ := x
  simp only [Four.toList, List.forall_mem_cons] at h
  obtain ⟨ha, hb, hc, hd, -⟩ := h
  simp only [Four.map, ha, hb, hc, hd]

namespace Distance

variable {q y : List Score}

theorem lanes_eq {ys : Four (List Score)} (term : Score → Score → Score)
    (hys : ∀ y ∈ ys.toList, y.length = q.length) :
    lanes term q ys = ys.map fun y => Score.total Score.zero (q.zipWith term y) := by
  obtain ⟨a, b, c, d⟩ := ys
  simp only [Four.toList, List.forall_mem_cons] at hys
  obtain ⟨ha, hb, hc, hd, -⟩ := hys
  have hcommon : commonLength q ⟨a, b, c, d⟩ = q.length := by simp [commonLength, ha, hb, hc, hd]
  have hwhole : ∀ y : List Score, y.length = q.length →
      (q.take q.length).zipWith term (y.take q.length) = q.zipWith term y := by
    intro y hy
    rw [List.take_length, ← hy, List.take_length]
  simp only [lanes, hcommon, Four.map, hwhole a ha, hwhole b hb, hwhole c hc, hwhole d hd]

/-- A loop over the positions. At every step it adds one term to each of four sums, and it stops
with the shortest operand. -/
def sumFour (term : Score → Score → Score) :
    List Score → Four (List Score) → Four Score → Four Score
  | x :: q, ⟨a :: as, b :: bs, c :: cs, d :: ds⟩, sums =>
    sumFour term q ⟨as, bs, cs, ds⟩
      ⟨sums.a + term x a, sums.b + term x b, sums.c + term x c, sums.d + term x d⟩
  | _, _, sums => sums

/-- The four sums do not see each other. -/
theorem sumFour_eq (term : Score → Score → Score) (q : List Score) (ys : Four (List Score))
    (sums : Four Score) : sumFour term q ys sums =
      let n := commonLength q ys
      let lane := fun start (y : List Score) =>
        Score.total start ((q.take n).zipWith term (y.take n))
      ⟨lane sums.a ys.a, lane sums.b ys.b, lane sums.c ys.c, lane sums.d ys.d⟩ := by
  fun_induction sumFour term q ys sums with
  | case1 x q a as b bs c cs d ds sums ih =>
    have hcommon : commonLength (x :: q) ⟨a :: as, b :: bs, c :: cs, d :: ds⟩ =
        commonLength q ⟨as, bs, cs, ds⟩ + 1 := by
      simp only [commonLength, List.length_cons, Nat.add_min_add_right]
    rw [ih, hcommon]
    rfl
  | case2 q ys sums hstop =>
    have hcommon : commonLength q ys = 0 := by
      obtain ⟨a, b, c, d⟩ := ys
      match q, a, b, c, d, hstop with
      | [], _, _, _, _, _ | _, [], _, _, _, _ | _, _, [], _, _, _ | _, _, _, [], _, _
      | _, _, _, _, [], _ => simp [commonLength]
      | x :: q, a :: as, b :: bs, c :: cs, d :: ds, hstop =>
        exact (hstop x q a as b bs c cs d ds rfl rfl).elim
    rw [hcommon]
    rfl

theorem lanes_eq_sumFour (term : Score → Score → Score) (q : List Score) (ys : Four (List Score)) :
    lanes term q ys = sumFour term q ys ⟨Score.zero, Score.zero, Score.zero, Score.zero⟩ := by
  rw [sumFour_eq]
  rfl

theorem commonLength_take (q : List Score) (ys : Four (List Score)) :
    commonLength (q.take (commonLength q ys)) (ys.map (List.take (commonLength q ys))) =
      commonLength q ys := by
  obtain ⟨a, b, c, d⟩ := ys
  have hle : ∀ n, n = commonLength q ⟨a, b, c, d⟩ →
      n ≤ q.length ∧ n ≤ a.length ∧ n ≤ b.length ∧ n ≤ c.length ∧ n ≤ d.length := by
    simp only [commonLength]
    omega
  obtain ⟨hq, ha, hb, hc, hd⟩ := hle _ rfl
  rw [commonLength]
  simp only [Four.map, List.length_take, Nat.min_eq_left hq, Nat.min_eq_left ha,
    Nat.min_eq_left hb, Nat.min_eq_left hc, Nat.min_eq_left hd, Nat.min_self]

/-- Nothing behind the end of the shortest operand is looked at. -/
theorem lanes_take (term : Score → Score → Score) (q : List Score) (ys : Four (List Score)) :
    lanes term (q.take (commonLength q ys)) (ys.map (List.take (commonLength q ys))) =
      lanes term q ys := by
  simp only [lanes, commonLength_take]
  simp only [Four.map, List.take_take, Nat.min_self]

def Vanishing (q y : List Score) : Prop := ∀ x ∈ q.zipWith (· * ·) y, x = Score.negZero

instance (q y : List Score) : Decidable (Vanishing q y) :=
  inferInstanceAs (Decidable (∀ x ∈ q.zipWith (· * ·) y, x = Score.negZero))

theorem innerProduct_of_vanishing (h : Vanishing q y) : innerProduct q y = Score.negZero :=
  Score.total_eq_start (Score.negZero_add _) h

end Distance

namespace Metric

variable {m : Metric} {q y : List Score}

def laneDistance (m : Metric) (q y : List Score) : Score :=
  match m with
  | .l2 => Score.total Score.zero (q.zipWith Distance.squaredGap y)
  | .innerProduct => Score.total Score.zero (q.zipWith (· * ·) y)
  | m => m.distance q y

theorem distanceFour_eq {ys : Four (List Score)} (hys : ∀ y ∈ ys.toList, y.length = q.length) :
    m.distanceFour q ys = ys.map (m.laneDistance q) := by
  cases m with
  | l2 => exact Distance.lanes_eq Distance.squaredGap hys
  | innerProduct => exact Distance.lanes_eq (· * ·) hys
  | _ => rfl

theorem laneDistance_of_vanishing (h : Distance.Vanishing q y) :
    Metric.innerProduct.laneDistance q y = Score.zero :=
  Score.total_eq_start Score.zero_add_negZero h

theorem laneDistance_l2 (hq : 0 < q.length) (hy : y.length = q.length) :
    Metric.l2.laneDistance q y = Metric.l2.distance q y := by
  have hpos : 0 < (q.zipWith Distance.squaredGap y).length := by
    rw [List.length_zipWith, hy, Nat.min_self]
    exact hq
  refine Score.total_zero_eq_of_mem (List.getElem_mem hpos) ?_
  rw [List.getElem_zipWith]
  exact Score.mul_self_ne_negZero _

/-- Whether a vector was scored in a lane shows only where the inner product vanishes. -/
theorem laneDistance_eq_iff (hq : 0 < q.length) (hy : y.length = q.length) :
    m.laneDistance q y = m.distance q y ↔ ¬(m = .innerProduct ∧ Distance.Vanishing q y) := by
  cases m with
  | l2 => simp [laneDistance_l2 hq hy]
  | innerProduct =>
    constructor
    · rintro heq ⟨-, h⟩
      rw [laneDistance_of_vanishing h] at heq
      exact Score.zero_ne_negZero (heq.trans (Distance.innerProduct_of_vanishing h))
    · intro h
      have hterm : ∃ x ∈ q.zipWith (· * ·) y, x ≠ Score.negZero := by
        simpa [Distance.Vanishing] using h
      obtain ⟨x, hx, hne⟩ := hterm
      exact Score.total_zero_eq_of_mem hx hne
  | _ => simp [laneDistance]

theorem laneDistance_eq (hm : m ≠ .innerProduct) (hq : 0 < q.length) (hy : y.length = q.length) :
    m.laneDistance q y = m.distance q y :=
  (laneDistance_eq_iff hq hy).mpr fun h => hm h.1

/-- The two scores of a vector are equal as numbers. -/
theorem distance_beq_laneDistance (hq : 0 < q.length) (hy : y.length = q.length)
    (hnan : (m.laneDistance q y).isNaN = false) :
    (m.distance q y == m.laneDistance q y) = true := by
  by_cases h : m = .innerProduct ∧ Distance.Vanishing q y
  · obtain ⟨rfl, h⟩ := h
    have hsingle : Metric.innerProduct.distance q y = Score.negZero :=
      Distance.innerProduct_of_vanishing h
    rw [hsingle, laneDistance_of_vanishing h]
    decide +kernel
  · rw [(laneDistance_eq_iff hq hy).mpr h] at hnan ⊢
    exact Score.beq_self hnan

end Metric

namespace Adapter

variable {a : Adapter} {q : List Score}

/-- The score of one vector among four. An inner product that vanishes is `0.0` there. -/
def laneScore (a : Adapter) (q y : List Score) : Score :=
  if a = .innerProduct ∧ Distance.Vanishing q y then Score.zero else a.kernel q y

theorem scoreFour_eq {ys : Four (List Score)} (hq : 0 < q.length)
    (hys : ∀ y ∈ ys.toList, y.length = q.length) : a.scoreFour q ys = ys.map (a.laneScore q) := by
  cases a with
  | l2 =>
    refine (Metric.distanceFour_eq (m := .l2) hys).trans (Four.map_congr fun y hy => ?_)
    rw [Metric.laneDistance_l2 hq (hys y hy), laneScore, if_neg (by simp)]
    rfl
  | innerProduct =>
    refine (Metric.distanceFour_eq (m := .innerProduct) hys).trans (Four.map_congr fun y hy => ?_)
    rw [laneScore]
    split
    · rename_i h
      exact Metric.laneDistance_of_vanishing h.2
    · rename_i h
      exact (Metric.laneDistance_eq_iff hq (hys y hy)).mpr fun hv => h ⟨rfl, hv.2⟩
  | plain m =>
    refine Four.map_congr fun y _ => ?_
    rw [laneScore, if_neg (by simp)]

end Adapter

namespace Distance

/-- A lane and a single score have the same bits, except where every product is `-0.0`: there the
inner product is `0.0` in a lane and `-0.0` singly. Four lanes are summed by one loop, over as many
positions as the shortest operand has. -/
theorem four_eq_single :
    (∀ (q : List Score) (ys : Four (List Score)), 1 ≤ q.length →
      (∀ y ∈ ys.toList, y.length = q.length) →
      (l2SqrFour q ys).toList = ys.toList.map (l2Sqr q) ∧
      List.Forall₂ (fun y lane =>
        if ∀ x ∈ q.zipWith (· * ·) y, x.toBits = 0x80000000 then
          lane.toBits = 0 ∧ (innerProduct q y).toBits = 0x80000000
        else lane.toBits = (innerProduct q y).toBits) ys.toList (innerProductFour q ys).toList) ∧
    ∀ (q : List Score) (ys : Four (List Score)),
      let shortest := min (min (min (min q.length ys.a.length) ys.b.length) ys.c.length) ys.d.length
      let cut := ys.map (List.take shortest)
      let zeros : Four Score := ⟨Score.zero, Score.zero, Score.zero, Score.zero⟩
      l2SqrFour q ys = l2SqrFour (q.take shortest) cut ∧
      innerProductFour q ys = innerProductFour (q.take shortest) cut ∧
      l2SqrFour q ys = sumFour squaredGap q ys zeros ∧
      innerProductFour q ys = sumFour (· * ·) q ys zeros := by
  constructor
  · intro q ys hq hys
    constructor
    · have hlanes : l2SqrFour q ys = ys.map (Metric.l2.laneDistance q) := lanes_eq squaredGap hys
      rw [hlanes, Four.toList_map]
      exact List.map_congr_left fun y hy => Metric.laneDistance_l2 hq (hys y hy)
    · have hlanes : innerProductFour q ys = ys.map (Metric.innerProduct.laneDistance q) :=
        lanes_eq (· * ·) hys
      rw [hlanes, Four.toList_map, List.forall₂_map_right_iff, List.forall₂_same]
      intro y hy
      split
      · rename_i h
        have hvanishing : Vanishing q y := fun x hx => Score.eq_of_toBits_eq (h x hx)
        rw [Metric.laneDistance_of_vanishing hvanishing, innerProduct_of_vanishing hvanishing]
        exact ⟨rfl, rfl⟩
      · rename_i h
        have hterm : ¬(Metric.innerProduct = .innerProduct ∧ Vanishing q y) := by
          rintro ⟨-, hvanishing⟩
          exact h fun x hx => congrArg Float32.toBits (hvanishing x hx)
        exact congrArg Float32.toBits ((Metric.laneDistance_eq_iff hq (hys y hy)).mpr hterm)
  · intro q ys shortest cut zeros
    exact ⟨(lanes_take squaredGap q ys).symm, (lanes_take (· * ·) q ys).symm,
      lanes_eq_sumFour squaredGap q ys, lanes_eq_sumFour (· * ·) q ys⟩

/-- The first vector of zeros is negative where the query is positive, and all its products are
`-0.0`. The second has one zero of the other sign. -/
theorem four_eq_single_zeros :
    let q := [Score.half, Score.half]
    let ys : Four (List Score) := ⟨[Score.negZero, Score.negZero], [Score.negZero, Score.zero],
      [Score.nan, Score.half], [Score.infinity, Score.negZero]⟩
    (1 ≤ q.length ∧ ∀ y ∈ ys.toList, y.length = q.length) ∧
      (l2SqrFour q ys).toList = ys.toList.map (l2Sqr q) ∧
      (innerProductFour q ys).a.toBits = 0 ∧ (innerProduct q ys.a).toBits = 0x80000000 ∧
      (innerProductFour q ys).b.toBits = (innerProduct q ys.b).toBits := by
  intro q ys
  have hq : 1 ≤ q.length := by decide
  have hys : ∀ y ∈ ys.toList, y.length = q.length := by decide
  obtain ⟨hl2, hproduct⟩ := four_eq_single.1 q ys hq hys
  obtain ⟨ha, hrest⟩ := List.forall₂_cons.mp hproduct
  obtain ⟨hb, -⟩ := List.forall₂_cons.mp hrest
  rw [if_pos (by decide +kernel)] at ha
  rw [if_neg (by decide +kernel)] at hb
  exact ⟨⟨hq, hys⟩, hl2, ha.1, ha.2, hb⟩

end Distance
end ExactNeighbors
