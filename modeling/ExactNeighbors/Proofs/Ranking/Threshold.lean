import ExactNeighbors.Proofs.Ranking

/-! # What a push answers

A full ranking compares a newcomer with its last entry only. In a sorted list an entry ranks before
`x` or equally exactly when its position is less than the number of such entries, so that the one
comparison counts everything offered so far. Entries that were turned away or given up are counted
too, but they never decide.
-/
namespace ExactNeighbors

namespace Scored

variable {p : Preference} {x y : Scored} {xs : List Scored}

theorem ranked_refl (p : Preference) (x : Scored) : ranked p x x = true :=
  ranked_iff.mpr (Or.inr ⟨rfl, Nat.le_refl _⟩)

theorem before_eq_not_ranked : before p x y = !ranked p y x := (Bool.not_not _).symm

/-- In a sorted list the entries that rank before `x` or equally come first. -/
theorem ranked_getElem_iff (h : xs.Pairwise fun x y => ranked p x y = true) {i : Nat}
    (hi : i < xs.length) : ranked p xs[i] x = true ↔ i < xs.countP (ranked p · x) := by
  induction xs generalizing i with
  | nil => cases hi
  | cons y ys ih =>
    obtain ⟨hy, hys⟩ := List.pairwise_cons.mp h
    -- either `y` counts itself, or `x` ranks before everything from `y` on
    by_cases hyx : ranked p y x = true
    · cases i with
      | zero => simp [hyx]
      | succ i => simp [hyx, ih hys (Nat.lt_of_succ_lt_succ hi)]
    · have hnone : ys.countP (ranked p · x) = 0 :=
        List.countP_eq_zero.mpr fun z hz hzx => hyx (ranked_trans (hy z hz) hzx)
      cases i with
      | zero => simp [hyx, hnone]
      | succ i => simp [hyx, hnone, ih hys (Nat.lt_of_succ_lt_succ hi)]

def precedingCount (p : Preference) (x : Scored) (offered : List Scored) : Nat :=
  (offered.filter fun y => !y.1.isNaN).countP (ranked p · x)

theorem countP_inRank (p : Preference) (x : Scored) (offered : List Scored) :
    (inRank p offered).countP (ranked p · x) = precedingCount p x offered :=
  (inRank_perm p offered).countP_eq _

theorem length_inRank (p : Preference) (offered : List Scored) :
    (inRank p offered).length = (offered.filter fun y => !y.1.isNaN).length :=
  (inRank_perm p offered).length_eq

theorem precedingCount_eq_length (p : Preference) (x : Scored) (offered : List Scored) :
    precedingCount p x offered = ((offered.filter fun y => !y.1.isNaN).filter fun y =>
      Score.key (p.rank y.1) < Score.key (p.rank x.1) ∨
        (Score.key (p.rank y.1) = Score.key (p.rank x.1) ∧ y.2 ≤ x.2)).length := by
  rw [precedingCount, List.countP_eq_length_filter]
  congr 1
  apply List.filter_congr
  intro y _
  rw [Bool.eq_iff_iff, ranked_iff, decide_eq_true_iff]

theorem precedingCount_le_append (p : Preference) (x : Scored) (offered later : List Scored) :
    precedingCount p x offered ≤ precedingCount p x (offered ++ later) := by
  rw [precedingCount, precedingCount, List.filter_append, List.countP_append]
  exact Nat.le_add_right _ _

end Scored

namespace Ranking

open Scored

variable {r : Ranking} {p : Preference} {k : Nat} {x last : Scored} {offered : List Scored}

theorem Summarizes.size_eq (h : r.Summarizes offered) :
    r.size = min r.capacity (offered.filter fun y => !y.1.isNaN).length := by
  rw [size, h, List.length_take, length_inRank]

/-- Comparing with the last entry of a full ranking counts everything that was offered. -/
theorem Summarizes.exists_last (h : r.Summarizes offered) (hzero : r.capacity ≠ 0)
    (hfull : r.capacity ≤ r.size) :
    ∃ last, r.entries.getLast? = some last ∧ ∀ x, ranked r.preference last x = true ↔
      r.capacity ≤ precedingCount r.preference x offered := by
  rw [h.size_eq, ← length_inRank r.preference] at hfull
  have hlength : r.entries.length = r.capacity := by
    rw [h, List.length_take]
    omega
  have hpos : r.capacity - 1 < (inRank r.preference offered).length := by omega
  refine ⟨(inRank r.preference offered)[r.capacity - 1], ?_, fun x => ?_⟩
  · rw [List.getLast?_eq_getElem?, hlength, h, List.getElem?_take_of_lt (by omega),
      List.getElem?_eq_getElem]
  · rw [ranked_getElem_iff (pairwise_inRank r.preference offered) hpos, countP_inRank]
    omega

theorem push_of_nan (hnan : x.1.isNaN = true) : (r.push x.1 x.2).1 = false := by
  rw [Ranking.push, if_pos (Or.inr hnan)]

theorem push_of_room (hroom : r.size < r.capacity) (hnan : x.1.isNaN = false) :
    (r.push x.1 x.2).1 = true := by
  have hzero : ¬r.capacity = 0 := by omega
  rw [Ranking.push, if_neg (by rw [hnan]; simp [hzero]), if_pos hroom]

theorem push_of_full (hzero : r.capacity ≠ 0) (hfull : r.capacity ≤ r.size)
    (hlast : r.entries.getLast? = some last) (hnan : x.1.isNaN = false) :
    (r.push x.1 x.2).1 = before r.preference x last := by
  rw [Ranking.push, if_neg (by rw [hnan]; simp [hzero]), if_neg (Nat.not_lt.mpr hfull), hlast]
  cases hx : before r.preference x last with
  | true => exact congrArg Prod.fst (if_pos hx)
  | false => exact congrArg Prod.fst (if_neg (by rw [hx]; decide))

theorem Summarizes.push_iff (h : r.Summarizes offered) (x : Scored) :
    (r.push x.1 x.2).1 = true ↔
      x.1.isNaN = false ∧ precedingCount r.preference x offered < r.capacity := by
  cases hnan : x.1.isNaN with
  | true => simp [push_of_nan hnan]
  | false =>
    by_cases hzero : r.capacity = 0
    · rw [Ranking.push, if_pos (Or.inl hzero)]
      simp [hzero]
    · rcases Nat.lt_or_ge r.size r.capacity with hroom | hfull
      · have hcount : precedingCount r.preference x offered ≤ _ := List.countP_le_length
        have hsize := h.size_eq
        have hlt : precedingCount r.preference x offered < r.capacity := by omega
        simp [push_of_room hroom hnan, hlt]
      · obtain ⟨last, hlast, hcount⟩ := h.exists_last hzero hfull
        rw [push_of_full hzero hfull hlast hnan, before_eq_not_ranked, Bool.not_eq_true',
          ← Bool.not_eq_true, hcount]
        simp

theorem Summarizes.threshold?_eq_none_iff (h : r.Summarizes offered) :
    r.threshold? = none ↔ r.size < r.capacity ∨ r.capacity = 0 := by
  unfold threshold?
  by_cases hroom : r.size < r.capacity
  · simp [hroom]
  · by_cases hzero : r.capacity = 0
    · have hnil : r.entries = [] := by rw [h, hzero, List.take_zero]
      simp [hzero, hnil]
    · obtain ⟨last, hlast, -⟩ := h.exists_last hzero (Nat.le_of_not_lt hroom)
      simp [hroom, hzero, hlast]

theorem Summarizes.last_of_threshold? (h : r.Summarizes offered) {t : Score}
    (ht : r.threshold? = some t) : r.capacity ≠ 0 ∧ r.capacity ≤ r.size ∧
      ∃ last, r.entries.getLast? = some last ∧ last.1 = t := by
  have hsome : ¬(r.size < r.capacity ∨ r.capacity = 0) := by
    rw [← h.threshold?_eq_none_iff, ht]
    simp
  rw [threshold?, if_neg (fun hroom => hsome (Or.inl hroom))] at ht
  obtain ⟨last, hlast, hscore⟩ := Option.map_eq_some_iff.mp ht
  exact ⟨by omega, by omega, last, hlast, hscore⟩

/-- Further offers only bring the last entry forward. -/
theorem Summarizes.threshold?_pushAll (h : r.Summarizes offered) {t : Score}
    (ht : r.threshold? = some t) (later : List Scored) :
    ∃ t', (r.pushAll later).threshold? = some t' ∧
      Score.key (r.preference.rank t') ≤ Score.key (r.preference.rank t) := by
  obtain ⟨hzero, hfull, last, hlast, rfl⟩ := h.last_of_threshold? ht
  obtain ⟨hlater, hp, hc⟩ := h.pushAll later
  obtain ⟨last', hlast', hcount⟩ := h.exists_last hzero hfull
  cases hlast.symm.trans hlast'
  have hsize := hlater.size_eq
  rw [hc, List.filter_append, List.length_append] at hsize
  rw [h.size_eq] at hfull
  have hfull' : (r.pushAll later).capacity ≤ (r.pushAll later).size := by omega
  obtain ⟨worst, hworst, hcount'⟩ := hlater.exists_last (by omega) hfull'
  have hranked : ranked r.preference worst last = true := by
    have hself := (hcount last).mp (ranked_refl r.preference last)
    have hmore := precedingCount_le_append r.preference last offered later
    rw [← hp]
    rw [hcount', hp, hc]
    omega
  refine ⟨worst.1, ?_, ?_⟩
  · rw [threshold?, if_neg (Nat.not_lt.mpr hfull'), hworst]
    rfl
  · rw [ranked_iff] at hranked
    omega

/-- A score that equals the last one needs a smaller id. -/
theorem Summarizes.push_tie_iff (h : r.Summarizes offered) (hzero : r.capacity ≠ 0)
    (hfull : r.capacity ≤ r.size) (hlast : r.entries.getLast? = some last) (id : Nat) :
    (r.push last.1 id).1 = true ↔ id < last.2 := by
  have hmem : last ∈ (inRank r.preference offered).take r.capacity :=
    h ▸ List.mem_of_getLast? hlast
  have hnan : (last.1, id).1.isNaN = false := (mem_inRank.mp (List.mem_of_mem_take hmem)).2
  have hpush := push_of_full (x := (last.1, id)) hzero hfull hlast hnan
  dsimp only at hpush
  rw [hpush, before_iff]
  simp

/-- A push is answered by what was offered before, entries that were turned away or given up
included: it is kept exactly when fewer than `k` numbers rank before it or equally. The threshold is
the score of the last entry of a full ranking. It never gets worse, and of several entries that
score it the smaller ids are kept. -/
theorem push_exact (k : Nat) (p : Preference) (offered : List Scored) :
    let r := (new k p).pushAll offered
    let numbers := offered.filter fun x => !x.1.isNaN
    (∀ score id,
      ((r.push score id).1 = true ↔ score.isNaN = false ∧
        (numbers.filter fun x => Score.key (p.rank x.1) < Score.key (p.rank score) ∨
          (Score.key (p.rank x.1) = Score.key (p.rank score) ∧ x.2 ≤ id)).length < k) ∧
      (r.push score id).2.size = min k (numbers.length + if score.isNaN then 0 else 1)) ∧
    r.size = min k numbers.length ∧
    (r.threshold? = none ↔ r.size < k ∨ k = 0) ∧
    (∀ t, r.threshold? = some t → ∃ last, r.entries.getLast? = some last ∧ last.1 = t ∧
      (∀ later, ∃ t', (r.pushAll later).threshold? = some t' ∧
        Score.key (p.rank t') ≤ Score.key (p.rank t)) ∧
      ∀ score id, score.toBits = t.toBits → ((r.push score id).1 = true ↔ id < last.2)) := by
  intro r numbers
  obtain ⟨h, hp, hc⟩ := (summarizes_new k p).pushAll offered
  rw [List.nil_append] at h
  change r.preference = p at hp
  change r.capacity = k at hc
  have hsize : r.size = min k numbers.length := hc ▸ h.size_eq
  refine ⟨fun score id => ⟨?_, ?_⟩, hsize, hc ▸ h.threshold?_eq_none_iff, fun t ht => ?_⟩
  · have hpush := h.push_iff (score, id)
    rwa [hc, hp, precedingCount_eq_length] at hpush
  · have hnext := (h.push (score, id)).size_eq
    rw [push_capacity, hc, List.filter_append, List.length_append] at hnext
    rw [hnext, List.filter_cons, List.filter_nil]
    cases score.isNaN <;> rfl
  · obtain ⟨hzero, hfull, last, hlast, hscore⟩ := h.last_of_threshold? ht
    refine ⟨last, hlast, hscore, fun later => ?_, fun score id hbits => ?_⟩
    · have hlater := h.threshold?_pushAll ht later
      rwa [hp] at hlater
    · cases Score.eq_of_toBits_eq hbits
      rw [← hscore]
      exact h.push_tie_iff hzero hfull hlast id

/-- Two halves are kept and two zeros were given up. The threshold is a half, and another half is
kept with a smaller id than 5 only. -/
theorem push_exact_ties :
    let offered : List Scored := [(Score.zero, 7), (Score.half, 5), (Score.negZero, 1),
      (Score.nan, 0), (Score.half, 3)]
    let r := (new 2 .largest).pushAll offered
    r.threshold? = some Score.half ∧ (r.push Score.half 4).1 = true ∧
      ¬(r.push Score.half 5).1 = true ∧ ¬(r.push Score.zero 0).1 = true ∧
      ∃ t', (r.pushAll [(Score.infinity, 9), (Score.nan, 2)]).threshold? = some t' ∧
        Score.key (-t') ≤ Score.key (-Score.half) := by
  intro offered r
  have ht : r.threshold? = some Score.half := by decide
  obtain ⟨hpush, -, -, hthreshold⟩ := push_exact 2 .largest offered
  obtain ⟨last, hlast, -, hlater, htie⟩ := hthreshold Score.half ht
  have hfive : last.2 = 5 := by
    have hentries : r.entries.getLast? = some (Score.half, 5) := by decide
    cases hlast.symm.trans hentries
    rfl
  have hzero := (hpush Score.zero 0).1
  refine ⟨ht, (htie Score.half 4 rfl).mpr (by omega), ?_, ?_, hlater _⟩
  · rw [htie Score.half 5 rfl]
    omega
  · rw [hzero]
    decide

end Ranking
end ExactNeighbors
