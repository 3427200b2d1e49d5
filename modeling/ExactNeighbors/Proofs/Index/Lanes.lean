import ExactNeighbors.Proofs.Distance.Lanes
import ExactNeighbors.Proofs.Index.Search

/-! # Scores in lanes and single scores

A scan scores whole blocks of four candidates in lanes and the last few candidates singly. Where a
candidate comes shows in nothing but the sign of a zero, and there only where the inner product adds
nothing but `-0.0`.
-/
namespace ExactNeighbors

namespace Metric

variable {m : Metric} {q y : List Score}

theorem scores_eq : ∀ {ys : List (List Score)}, (∀ y ∈ ys, y.length = q.length) →
    m.scores q ys = (ys.take (4 * (ys.length / 4))).map (m.laneDistance q) ++
      (ys.drop (4 * (ys.length / 4))).map (m.distance q)
  | [], _ | [_], _ | [_, _], _ | [_, _, _], _ => by
    rw [scores_rest (by simp)]
    simp
  | a :: b :: c :: d :: ys, hys => by
    have hblock : ∀ y ∈ (⟨a, b, c, d⟩ : Four (List Score)).toList, y.length = q.length := by
      intro y hy
      exact hys y (List.mem_append_left ys hy)
    -- the recursion of the scan: one block of four, then what is left
    have hrest : ∀ y ∈ ys, y.length = q.length := by
      intro y hy
      exact hys y (List.mem_append_right [a, b, c, d] hy)
    have hcount : 4 * ((a :: b :: c :: d :: ys).length / 4) = 4 * (ys.length / 4) + 4 := by
      simp only [List.length_cons]
      omega
    rw [scores_block, distanceFour_eq hblock, scores_eq hrest, hcount]
    rfl

theorem getElem_scores {ys : List (List Score)} (hys : ∀ y ∈ ys, y.length = q.length) {i : Nat}
    (hi : i < (m.scores q ys).length) (hi' : i < ys.length) : (m.scores q ys)[i] =
      if i < 4 * (ys.length / 4) then m.laneDistance q ys[i] else m.distance q ys[i] := by
  have hlane : ((ys.take (4 * (ys.length / 4))).map (m.laneDistance q)).length =
      4 * (ys.length / 4) := by
    rw [List.length_map, List.length_take]
    omega
  simp only [scores_eq hys]
  split
  · rw [List.getElem_append_left (by omega), List.getElem_map, List.getElem_take]
  · rw [List.getElem_append_right (by omega), List.getElem_map, List.getElem_drop]
    congr 2
    omega

end Metric

namespace Index

variable {ix : Index} {q : List Score} {selector : Option Selector} {slot : Nat}

theorem Coherent.length_vectorAt (h : ix.Coherent) {slot : Nat} (hslot : slot < ix.store.physical) :
    (ix.store.vectorAt slot).length = ix.dimension := by
  rw [h.store.length_vectorAt hslot, h.codec_eq]
  rfl

/-- Whether a candidate is scored in a lane: it comes before the last few, which are fewer than
four. -/
def InLane (ix : Index) (selector : Option Selector) (slot : Nat) : Prop :=
  (ix.candidates selector).idxOf slot < 4 * ((ix.candidates selector).length / 4)

instance (ix : Index) (selector : Option Selector) (slot : Nat) :
    Decidable (ix.InLane selector slot) :=
  inferInstanceAs (Decidable ((ix.candidates selector).idxOf slot < _))

def scoreOf (ix : Index) (selector : Option Selector) (q : List Score) (slot : Nat) : Score :=
  if ix.InLane selector slot then ix.metric.laneDistance q (ix.store.vectorAt slot)
  else ix.metric.distance q (ix.store.vectorAt slot)

theorem scored_candidates (h : ix.Coherent) (hq : q.length = ix.dimension)
    (selector : Option Selector) : scored ix.store q (ix.candidates selector) =
      (ix.candidates selector).map fun slot => (ix.scoreOf selector q slot, slot) := by
  have hvectors : ∀ y ∈ (ix.candidates selector).map ix.store.vectorAt, y.length = q.length := by
    intro y hy
    obtain ⟨slot, hslot, rfl⟩ := List.mem_map.mp hy
    rw [h.length_vectorAt (lt_physical_of_mem_candidates hslot), hq]
  have hlength := length_scored ix.store q (ix.candidates selector)
  apply List.ext_getElem
  · rw [hlength, List.length_map]
  · intro i hi _
    rw [hlength] at hi
    have hidx := (nodup_candidates ix selector).idxOf_getElem i hi
    have hvector : i < ((ix.candidates selector).map ix.store.vectorAt).length := by
      rwa [List.length_map]
    simp only [scored, List.getElem_zip, Metric.getElem_scores hvectors _ hvector, List.getElem_map,
      List.length_map, scoreOf, InLane, hidx, metric]

/-- The score does not depend on the candidate's place unless the inner product vanishes. -/
theorem scoreOf_eq_distance (h : ix.Coherent) (hq : q.length = ix.dimension)
    (hslot : slot < ix.store.physical) : ix.scoreOf selector q slot =
      ix.metric.distance q (ix.store.vectorAt slot) ↔
    ¬(ix.InLane selector slot ∧ ix.metric = .innerProduct ∧
      Distance.Vanishing q (ix.store.vectorAt slot)) := by
  have hpos : 0 < q.length := hq ▸ h.store.dimension_pos
  have hy : (ix.store.vectorAt slot).length = q.length := (h.length_vectorAt hslot).trans hq.symm
  unfold scoreOf
  split
  · rw [Metric.laneDistance_eq_iff hpos hy]
    simp [*]
  · simp [*]

theorem distance_beq_scoreOf (h : ix.Coherent) (hq : q.length = ix.dimension)
    (hslot : slot < ix.store.physical) (hnan : (ix.scoreOf selector q slot).isNaN = false) :
    (ix.metric.distance q (ix.store.vectorAt slot) == ix.scoreOf selector q slot) = true := by
  have hpos : 0 < q.length := hq ▸ h.store.dimension_pos
  have hy : (ix.store.vectorAt slot).length = q.length := (h.length_vectorAt hslot).trans hq.symm
  unfold scoreOf at hnan ⊢
  split at hnan
  · rw [if_pos ‹_›]
    exact Metric.distance_beq_laneDistance hpos hy hnan
  · rw [if_neg ‹_›]
    exact Score.beq_self hnan

end Index
end ExactNeighbors
