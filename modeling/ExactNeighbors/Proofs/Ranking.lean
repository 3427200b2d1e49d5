import ExactNeighbors.Ranking
import ExactNeighbors.Proofs.Number.Key

/-! # Rankings are sorted prefixes

Pushing keeps a bounded list and compares with its last entry only. The list is nevertheless the
beginning of the sorted list of everything offered so far, NaN scores left out.
-/
namespace ExactNeighbors

theorem Preference.rank_injective {p : Preference} {x y : Score} (hx : x.isNaN = false)
    (hy : y.isNaN = false) (h : Score.key (p.rank x) = Score.key (p.rank y)) : x = y := by
  cases p with
  | smallest => exact Score.eq_of_key_eq h
  | largest =>
    rw [rank, rank, Score.key_neg hx, Score.key_neg hy] at h
    exact Score.eq_of_key_eq (by omega)

namespace Scored

variable {p : Preference} {x y z : Scored} {xs ys : List Scored}

def ranked (p : Preference) (x y : Scored) : Bool := !before p y x

theorem before_iff : before p x y = true ↔ Score.key (p.rank x.1) < Score.key (p.rank y.1) ∨
    (Score.key (p.rank x.1) = Score.key (p.rank y.1) ∧ x.2 < y.2) := by simp [before]

theorem ranked_iff : ranked p x y = true ↔ Score.key (p.rank x.1) < Score.key (p.rank y.1) ∨
    (Score.key (p.rank x.1) = Score.key (p.rank y.1) ∧ x.2 ≤ y.2) := by
  rw [ranked, Bool.not_eq_true', ← Bool.not_eq_true, before_iff]
  omega

theorem ranked_trans (hxy : ranked p x y = true) (hyz : ranked p y z = true) :
    ranked p x z = true := by
  rw [ranked_iff] at hxy hyz ⊢
  omega

theorem ranked_total (p : Preference) (x y : Scored) : (ranked p x y || ranked p y x) = true := by
  rw [Bool.or_eq_true, ranked_iff, ranked_iff]
  omega

theorem ranked_of_before (h : before p x y = true) : ranked p x y = true := by
  rw [before_iff] at h
  rw [ranked_iff]
  omega

theorem eq_of_ranked (hx : x.1.isNaN = false) (hy : y.1.isNaN = false)
    (hxy : ranked p x y = true) (hyx : ranked p y x = true) : x = y := by
  rw [ranked_iff] at hxy hyx
  have hkey : Score.key (p.rank x.1) = Score.key (p.rank y.1) := by omega
  exact Prod.ext (Preference.rank_injective hx hy hkey) (by omega)

def inRank (p : Preference) (xs : List Scored) : List Scored :=
  (xs.filter fun x => !x.1.isNaN).mergeSort (ranked p)

theorem pairwise_inRank (p : Preference) (xs : List Scored) :
    (inRank p xs).Pairwise fun x y => ranked p x y = true := by
  apply List.pairwise_mergeSort
  · intro x y z
    exact ranked_trans
  · exact ranked_total p

theorem inRank_perm (p : Preference) (xs : List Scored) :
    (inRank p xs).Perm (xs.filter fun x => !x.1.isNaN) := List.mergeSort_perm _ _

theorem mem_inRank : x ∈ inRank p xs ↔ x ∈ xs ∧ x.1.isNaN = false := by
  rw [(inRank_perm p xs).mem_iff, List.mem_filter, Bool.not_eq_true']

/-- Apart from NaN there is only one way to sort. -/
theorem eq_inRank (hperm : ys.Perm (xs.filter fun x => !x.1.isNaN))
    (hsorted : ys.Pairwise fun x y => ranked p x y = true) : ys = inRank p xs := by
  have hperm := hperm.trans (inRank_perm p xs).symm
  refine List.Perm.eq_of_pairwise ?_ hsorted (pairwise_inRank p xs) hperm
  intro x y hx hy hxy hyx
  exact eq_of_ranked (mem_inRank.mp (hperm.mem_iff.mp hx)).2 (mem_inRank.mp hy).2 hxy hyx

theorem inRank_congr (h : ys.Perm xs) : inRank p ys = inRank p xs :=
  eq_inRank ((inRank_perm p ys).trans (h.filter _)) (pairwise_inRank p ys)

end Scored

namespace Ranking

open Scored

variable {p : Preference} {x : Scored} {xs ys : List Scored}

theorem insert_perm (p : Preference) (x : Scored) (ys : List Scored) :
    (insert p x ys).Perm (x :: ys) := by
  induction ys with
  | nil => exact List.Perm.refl _
  | cons y ys ih =>
    unfold insert
    split
    · exact List.Perm.refl _
    · exact (ih.cons y).trans (List.Perm.swap x y ys)

theorem pairwise_insert (h : ys.Pairwise fun x y => ranked p x y = true) :
    (insert p x ys).Pairwise fun x y => ranked p x y = true := by
  induction ys with
  | nil => exact List.pairwise_singleton _ x
  | cons y ys ih =>
    obtain ⟨hy, hys⟩ := List.pairwise_cons.mp h
    unfold insert
    split
    · rename_i hxy
      refine List.pairwise_cons.mpr ⟨fun z hz => ?_, h⟩
      rcases List.mem_cons.mp hz with rfl | hz
      · exact ranked_of_before hxy
      · exact ranked_trans (ranked_of_before hxy) (hy z hz)
    · rename_i hxy
      refine List.pairwise_cons.mpr ⟨fun z hz => ?_, ih hys⟩
      rcases List.mem_cons.mp ((insert_perm p x ys).mem_iff.mp hz) with rfl | hz
      · rw [ranked, Bool.not_eq_true', ← Bool.not_eq_true]
        exact hxy
      · exact hy z hz

theorem inRank_snoc (hx : x.1.isNaN = false) :
    inRank p (xs ++ [x]) = insert p x (inRank p xs) := by
  refine (eq_inRank ?_ (pairwise_insert (pairwise_inRank p xs))).symm
  have hkeep : (!x.1.isNaN) = true := by rw [hx]; rfl
  rw [List.filter_append, List.filter_cons, if_pos hkeep, List.filter_nil]
  exact (insert_perm p x _).trans
    (((inRank_perm p xs).cons x).trans (List.perm_append_singleton x _).symm)

theorem inRank_snoc_nan (hx : x.1.isNaN = true) : inRank p (xs ++ [x]) = inRank p xs := by
  have hdrop : ¬(!x.1.isNaN) = true := by rw [hx]; decide
  rw [inRank, List.filter_append, List.filter_cons, if_neg hdrop, List.filter_nil, List.append_nil]
  rfl

/-- What is cut off behind position `k` has no say in what an insertion leaves before it. -/
theorem take_insert_take (p : Preference) (x : Scored) (k : Nat) (ys : List Scored) :
    (insert p x (ys.take k)).take k = (insert p x ys).take k := by
  induction ys generalizing k with
  | nil => rw [List.take_nil]
  | cons y ys ih =>
    cases k with
    | zero => rfl
    | succ k =>
      rw [List.take_succ_cons, insert, insert]
      split
      · cases k with
        | zero => rfl
        | succ k => simp [List.take_take]
      · rw [List.take_succ_cons, List.take_succ_cons, ih]

theorem insert_eq_append (h : ∀ y ∈ ys, before p x y = false) : insert p x ys = ys ++ [x] := by
  induction ys with
  | nil => rfl
  | cons y ys ih =>
    rw [insert, if_neg (by rw [h y List.mem_cons_self]; decide),
      ih fun z hz => h z (List.mem_cons_of_mem y hz)]
    rfl

theorem insert_concat {last : Scored} (h : before p x last = true) :
    insert p x (ys ++ [last]) = insert p x ys ++ [last] := by
  induction ys with
  | nil => simp [insert, h]
  | cons y ys ih =>
    rw [List.cons_append, insert, insert, ih]
    split
    · rfl
    · rfl

/-- A newcomer that does not beat the last entry of a sorted list beats none. -/
theorem before_eq_false {last : Scored} (hx : before p x last = false)
    (h : (ys ++ [last]).Pairwise fun x y => ranked p x y = true) :
    ∀ y ∈ ys ++ [last], before p x y = false := by
  intro y hy
  have hlast : ranked p last x = true := by rw [ranked, hx]; rfl
  have hyx : ranked p y x = true := by
    rcases List.mem_append.mp hy with hy | hy
    · exact ranked_trans ((List.pairwise_append.mp h).2.2 y hy last List.mem_cons_self) hlast
    · rw [List.mem_singleton.mp hy]
      exact hlast
  rw [ranked, Bool.not_eq_true'] at hyx
  exact hyx

/-- Comparing with the last entry alone does what inserting and cutting would do. -/
theorem take_insert_concat {last : Scored}
    (h : (ys ++ [last]).Pairwise fun x y => ranked p x y = true) :
    (insert p x (ys ++ [last])).take (ys.length + 1) =
      if before p x last then insert p x ys else ys ++ [last] := by
  cases hx : before p x last with
  | true =>
    have hlength := (insert_perm p x ys).length_eq
    rw [List.length_cons] at hlength
    rw [if_pos rfl, insert_concat hx, ← hlength, List.take_left]
  | false =>
    have hlength : (ys ++ [last]).length = ys.length + 1 := by simp
    rw [if_neg (by decide), insert_eq_append (before_eq_false hx h), ← hlength, List.take_left]

variable {r : Ranking}

/-- The entries are the best of those offered, as many as the capacity admits. -/
def Summarizes (r : Ranking) (offered : List Scored) : Prop :=
  r.entries = (inRank r.preference offered).take r.capacity

theorem summarizes_new (k : Nat) (p : Preference) : (new k p).Summarizes [] := by
  simp [Summarizes, new, inRank]

theorem push_preference (r : Ranking) (score : Score) (id : Nat) :
    (r.push score id).2.preference = r.preference := by
  unfold push
  repeat' split
  all_goals rfl

theorem push_capacity (r : Ranking) (score : Score) (id : Nat) :
    (r.push score id).2.capacity = r.capacity := by
  unfold push
  repeat' split
  all_goals rfl

theorem push_entries {score : Score} {id : Nat} (hnan : score.isNaN = false)
    (hsorted : r.entries.Pairwise fun x y => ranked r.preference x y = true)
    (hsize : r.entries.length ≤ r.capacity) :
    (r.push score id).2.entries =
      (insert r.preference (score, id) r.entries).take r.capacity := by
  unfold push
  by_cases hzero : r.capacity = 0
  · have hnil : r.entries = [] := List.length_eq_zero_iff.mp (by omega)
    rw [if_pos (Or.inl hzero), hzero, List.take_zero]
    exact hnil
  · rw [if_neg (by rw [hnan]; simp [hzero])]
    by_cases hroom : r.size < r.capacity
    · have hlength := (insert_perm r.preference (score, id) r.entries).length_eq
      rw [List.length_cons] at hlength
      rw [if_pos hroom]
      exact (List.take_of_length_le (Nat.le_trans (Nat.le_of_eq hlength) hroom)).symm
    · have hfull : r.entries.length = r.capacity := Nat.le_antisymm hsize (Nat.le_of_not_lt hroom)
      rw [if_neg hroom]
      rcases List.eq_nil_or_concat r.entries with hnil | ⟨init, last, hentries⟩
      · rw [hnil] at hfull
        exact absurd hfull.symm hzero
      · rw [List.concat_eq_append] at hentries
        rw [hentries] at hfull hsorted
        rw [List.length_append, List.length_singleton] at hfull
        rw [hentries, ← hfull, take_insert_concat hsorted, List.getLast?_concat,
          List.dropLast_concat]
        dsimp only
        split
        · rfl
        · exact hentries

theorem Summarizes.push {offered : List Scored} (h : r.Summarizes offered) (x : Scored) :
    (r.push x.1 x.2).2.Summarizes (offered ++ [x]) := by
  rw [Summarizes, push_preference, push_capacity]
  cases hnan : x.1.isNaN with
  | true =>
    rw [inRank_snoc_nan hnan, Ranking.push, if_pos (Or.inr hnan)]
    exact h
  | false =>
    have hsorted := (pairwise_inRank r.preference offered).sublist (List.take_sublist r.capacity _)
    have hsize := List.length_take_le r.capacity (inRank r.preference offered)
    rw [Summarizes] at h
    rw [← h] at hsorted hsize
    rw [inRank_snoc hnan, push_entries hnan hsorted hsize, h, take_insert_take]

theorem Summarizes.pushAll {offered : List Scored} (h : r.Summarizes offered) (xs : List Scored) :
    (r.pushAll xs).Summarizes (offered ++ xs) ∧ (r.pushAll xs).preference = r.preference ∧
      (r.pushAll xs).capacity = r.capacity := by
  induction xs generalizing r offered with
  | nil => exact ⟨by rwa [List.append_nil], rfl, rfl⟩
  | cons x xs ih =>
    obtain ⟨hs, hp, hc⟩ := ih (h.push x)
    rw [List.append_assoc] at hs
    exact ⟨hs, hp.trans (push_preference r x.1 x.2), hc.trans (push_capacity r x.1 x.2)⟩

theorem entries_pushAll (k : Nat) (p : Preference) (xs : List Scored) :
    ((new k p).pushAll xs).entries = (inRank p xs).take k := by
  obtain ⟨hs, hp, hc⟩ := (summarizes_new k p).pushAll xs
  rw [Summarizes, hp, hc] at hs
  exact hs

/-- After any offers the entries are the first `k` of all offered pairs that are not NaN, sorted by
the place of their rank in the total order and then by their ids. So the order of the offers does
not matter, and a larger capacity only adds entries behind. -/
theorem best_of_offered (k : Nat) (p : Preference) (offered : List Scored) :
    (∃ sorted : List Scored, sorted.Perm (offered.filter fun x => !x.1.isNaN) ∧
      (sorted.Pairwise fun x y => Score.key (p.rank x.1) < Score.key (p.rank y.1) ∨
        (Score.key (p.rank x.1) = Score.key (p.rank y.1) ∧ x.2 ≤ y.2)) ∧
      ((new k p).pushAll offered).entries = sorted.take k) ∧
    (∀ others : List Scored, others.Perm offered →
      ((new k p).pushAll others).entries = ((new k p).pushAll offered).entries) ∧
    ∀ larger, k ≤ larger →
      ((new k p).pushAll offered).entries <+: ((new larger p).pushAll offered).entries := by
  refine ⟨⟨inRank p offered, inRank_perm p offered, ?_, entries_pushAll k p offered⟩, ?_, ?_⟩
  · exact (pairwise_inRank p offered).imp ranked_iff.mp
  · intro others hperm
    rw [entries_pushAll, entries_pushAll, inRank_congr hperm]
  · intro larger hle
    rw [entries_pushAll, entries_pushAll]
    exact List.take_prefix_take_left hle

/-- Both zeros, a NaN and a pair that is offered twice. Of the largest scores 0.0 comes before
-0.0. -/
theorem best_of_offered_zeros :
    let offered : List Scored := [(Score.negZero, 1), (Score.zero, 7), (Score.nan, 0),
      (Score.half, 3), (Score.zero, 7), (Score.zero, 2)]
    ((new 4 .largest).pushAll offered.reverse).entries =
        [(Score.half, 3), (Score.zero, 2), (Score.zero, 7), (Score.zero, 7)] ∧
      ((new 2 .largest).pushAll offered).entries <+:
        [(Score.half, 3), (Score.zero, 2), (Score.zero, 7), (Score.zero, 7)] := by
  intro offered
  have hfour : ((new 4 .largest).pushAll offered).entries =
      [(Score.half, 3), (Score.zero, 2), (Score.zero, 7), (Score.zero, 7)] := by decide
  obtain ⟨-, hreverse, -⟩ := best_of_offered 4 .largest offered
  obtain ⟨-, -, hprefix⟩ := best_of_offered 2 .largest offered
  exact ⟨(hreverse _ offered.reverse_perm).trans hfour, hfour ▸ hprefix 4 (by decide)⟩

end Ranking
end ExactNeighbors
