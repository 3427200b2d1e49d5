import Mathlib.Order.Monotone.Basic
import ExactNeighbors.Index.Search
import ExactNeighbors.Proofs.Number.Sum
import ExactNeighbors.Proofs.Ranking

/-! # Sorted hits

The order of hits is total, and two scored slots that are equal in it are the same. So there is only
one way to sort: the bounded ranking keeps the beginning of the sorted list, and to leave entries
out before sorting is to leave them out afterwards.
-/
namespace ExactNeighbors.Index

variable {m : Metric} {x y z : Scored} {xs ys : List Scored} {k : Nat}

theorem inOrder_iff : inOrder m x y = true ↔
    (if m.isSimilarity then Score.key y.1 < Score.key x.1 else Score.key x.1 < Score.key y.1) ∨
      (Score.key x.1 = Score.key y.1 ∧ x.2 ≤ y.2) := by
  unfold inOrder
  split <;> simp

theorem inOrder_trans (hxy : inOrder m x y = true) (hyz : inOrder m y z = true) :
    inOrder m x z = true := by
  rw [inOrder_iff] at hxy hyz ⊢
  by_cases hm : m.isSimilarity = true
  · rw [if_pos hm] at hxy hyz ⊢
    omega
  · rw [if_neg hm] at hxy hyz ⊢
    omega

theorem inOrder_total (m : Metric) (x y : Scored) : (inOrder m x y || inOrder m y x) = true := by
  rw [Bool.or_eq_true, inOrder_iff, inOrder_iff]
  split <;> omega

/-- Ranking negated scores is the same as ranking scores the other way round. -/
theorem ranked_of_inOrder (hx : x.1.isNaN = false) (hy : y.1.isNaN = false)
    (h : inOrder m x y = true) : Scored.ranked (preference m) x y = true := by
  rw [inOrder_iff] at h
  rw [Scored.ranked_iff]
  cases hm : m.isSimilarity with
  | true =>
    rw [hm, if_pos rfl] at h
    rw [preference, hm, if_pos rfl, Preference.rank, Preference.rank, Score.key_neg hx,
      Score.key_neg hy]
    omega
  | false =>
    rw [hm, if_neg (by decide)] at h
    rw [preference, hm, if_neg (by decide)]
    exact h

theorem inOrder_antisymm (hxy : inOrder m x y = true) (hyx : inOrder m y x = true) : x = y := by
  rw [inOrder_iff] at hxy hyx
  have hboth : Score.key x.1 = Score.key y.1 ∧ x.2 = y.2 := by
    by_cases hm : m.isSimilarity = true
    · rw [if_pos hm] at hxy hyx
      omega
    · rw [if_neg hm] at hxy hyx
      omega
  exact Prod.ext (Score.eq_of_key_eq hboth.1) hboth.2

theorem pairwise_sort (m : Metric) (xs : List Scored) :
    (xs.mergeSort (inOrder m)).Pairwise fun x y => inOrder m x y = true := by
  apply List.pairwise_mergeSort
  · intro x y z
    exact inOrder_trans
  · exact inOrder_total m

theorem sort_eq (hperm : ys.Perm xs) (hsorted : ys.Pairwise fun x y => inOrder m x y = true) :
    xs.mergeSort (inOrder m) = ys := by
  refine List.Perm.eq_of_pairwise ?_ (pairwise_sort m xs) hsorted
    ((List.mergeSort_perm xs _).trans hperm.symm)
  intro x y _ _ hxy hyx
  exact inOrder_antisymm hxy hyx

theorem sort_filter (m : Metric) (p : Scored → Bool) (xs : List Scored) :
    (xs.filter p).mergeSort (inOrder m) = (xs.mergeSort (inOrder m)).filter p :=
  sort_eq ((List.mergeSort_perm xs _).filter p) ((pairwise_sort m xs).filter p)

theorem nearest_eq (m : Metric) (k : Nat) (xs : List Scored) :
    nearest m k xs = ((xs.filter fun x => !x.1.isNaN).mergeSort (inOrder m)).take k := by
  rw [nearest, Ranking.entries_pushAll]
  congr 1
  have hperm := List.mergeSort_perm (xs.filter fun x => !x.1.isNaN) (inOrder m)
  refine (Scored.eq_inRank hperm ?_).symm
  have hnumber : ∀ x ∈ (xs.filter fun x => !x.1.isNaN).mergeSort (inOrder m),
      x.1.isNaN = false := by
    intro x hx
    exact (Bool.not_eq_true' _).mp (List.mem_filter.mp (hperm.mem_iff.mp hx)).2
  refine (pairwise_sort m _).imp_of_mem ?_
  intro x y hx hy hxy
  exact ranked_of_inOrder (hnumber x hx) (hnumber y hy) hxy

/-- Everything is found that is not NaN, when there is room for it. -/
theorem nearest_of_length_le (h : xs.length ≤ k) :
    nearest m k xs = (xs.filter fun x => !x.1.isNaN).mergeSort (inOrder m) := by
  rw [nearest_eq, List.take_of_length_le]
  rw [List.length_mergeSort]
  exact Nat.le_trans (List.length_filter_le _ xs) h

/-- The best of some are the first of these among the best of all. -/
theorem nearest_filter (h : xs.length ≤ k) (p : Scored → Bool) (n : Nat) :
    nearest m n (xs.filter p) = ((nearest m k xs).filter p).take n := by
  rw [nearest_eq, nearest_of_length_le h, List.filter_filter, ← sort_filter, List.filter_filter]
  simp only [Bool.and_comm]

theorem isNaN_of_within {radius score : Score} (h : within m radius score = true) :
    score.isNaN = false := by
  unfold within at h
  split at h
  · exact (Score.isNaN_of_lt (of_decide_eq_true h)).2
  · exact (Score.isNaN_of_lt (of_decide_eq_true h)).1

/-- What lies within a radius is found, and comes in the same order, when everything is found. -/
theorem sort_within (h : xs.length ≤ k) (radius : Score) :
    (xs.filter fun x => within m radius x.1).mergeSort (inOrder m) =
      (nearest m k xs).filter fun x => within m radius x.1 := by
  rw [nearest_of_length_le h, ← sort_filter, List.filter_filter]
  congr 1
  apply List.filter_congr
  intro x _
  cases hx : within m radius x.1 with
  | false => rfl
  | true => rw [isNaN_of_within hx]; rfl

def moved (place : Nat → Nat) (x : Scored) : Scored := (x.1, place x.2)

/-- Only the order of the slots counts, not which ones they are. -/
theorem inOrder_moved {place : Nat → Nat} {slots : List Nat}
    (hmono : StrictMonoOn place {slot | slot ∈ slots}) (hx : x.2 ∈ slots) (hy : y.2 ∈ slots) :
    inOrder m x y = inOrder m (moved place x) (moved place y) := by
  have hle : place x.2 ≤ place y.2 ↔ x.2 ≤ y.2 := hmono.le_iff_le hx hy
  apply Bool.eq_iff_iff.mpr
  rw [inOrder_iff, inOrder_iff]
  simp only [moved, hle]

theorem sort_moved {place : Nat → Nat}
    (hmono : StrictMonoOn place {slot | slot ∈ xs.map Prod.snd}) :
    (xs.map (moved place)).mergeSort (inOrder m) =
      (xs.mergeSort (inOrder m)).map (moved place) := by
  symm
  apply List.map_mergeSort
  intro x hx y hy
  exact inOrder_moved hmono (List.mem_map_of_mem hx) (List.mem_map_of_mem hy)

theorem sort_filter_moved {place : Nat → Nat} (p : Score → Bool)
    (hmono : StrictMonoOn place {slot | slot ∈ xs.map Prod.snd}) :
    ((xs.map (moved place)).filter fun x => p x.1).mergeSort (inOrder m) =
      ((xs.filter fun x => p x.1).mergeSort (inOrder m)).map (moved place) := by
  have hp : (fun x : Scored => p x.1) ∘ moved place = fun x => p x.1 := rfl
  rw [sort_filter, sort_moved hmono, List.filter_map, hp, sort_filter]

theorem nearest_moved {place : Nat → Nat}
    (hmono : StrictMonoOn place {slot | slot ∈ xs.map Prod.snd}) :
    nearest m k (xs.map (moved place)) = (nearest m k xs).map (moved place) := by
  rw [nearest_eq, sort_filter_moved (fun score => !score.isNaN) hmono, nearest_eq, List.map_take]

end ExactNeighbors.Index
