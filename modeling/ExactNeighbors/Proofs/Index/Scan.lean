import ExactNeighbors.Index.Search
import ExactNeighbors.Proofs.Computer

/-! # Scanning candidates

A scan gives each candidate slot its score: whole blocks of four go through the kernel for four
vectors, the last few through the kernel for one.
-/
namespace ExactNeighbors

namespace Metric

variable {m : Metric} {q : List Score} {ys : List (List Score)}

def blockScores (m : Metric) (q : List Score) : List (List Score) → List Score
  | [a, b, c, d] => (m.distanceFour q ⟨a, b, c, d⟩).toList
  | _ => []

/-- The scores of vectors, four at a time and the last few one by one. -/
def scores (m : Metric) (q : List Score) (ys : List (List Score)) : List Score :=
  (Rows.split 4 ys).flatMap (m.blockScores q) ++
    (ys.drop (4 * (ys.length / 4))).map (m.distance q)

theorem scores_block (a b c d : List Score) (ys : List (List Score)) :
    m.scores q (a :: b :: c :: d :: ys) =
      (m.distanceFour q ⟨a, b, c, d⟩).toList ++ m.scores q ys := by
  have hrow : [a, b, c, d].length = 4 := rfl
  have hsplit : Rows.split 4 (a :: b :: c :: d :: ys) = [a, b, c, d] :: Rows.split 4 ys :=
    Rows.split_append (by decide) hrow ys
  have hcount : 4 * ((a :: b :: c :: d :: ys).length / 4) = 4 * (ys.length / 4) + 4 := by
    simp only [List.length_cons]
    omega
  rw [scores, hsplit, hcount, List.flatMap_cons, List.append_assoc]
  rfl

theorem scores_rest (h : ys.length < 4) : m.scores q ys = ys.map (m.distance q) := by
  rw [scores, Rows.split_eq_nil h, Nat.div_eq_of_lt h]
  rfl

theorem length_scores (m : Metric) (q : List Score) :
    ∀ ys : List (List Score), (m.scores q ys).length = ys.length
  | [] => rfl
  | [_] | [_, _] | [_, _, _] => by rw [scores_rest (by simp), List.length_map]
  | a :: b :: c :: d :: ys => by
    rw [scores_block, List.length_append, length_scores m q ys]
    exact Nat.add_comm _ _

end Metric

namespace Index

variable {ix : Index} {s : Store Single} {c : Computer} {q : List Score} {slots : List Nat}

def scored (s : Store Single) (q : List Score) (slots : List Nat) : List Scored :=
  (s.metric.scores q (slots.map s.vectorAt)).zip slots

theorem run_scoreRest (hs : s.Coherent) (hlt : ∀ slot ∈ slots, slot < s.physical)
    (hc : c.Bound (.ofMetric s.metric) q) :
    ∃ c', c.run (slots.mapM fun slot => do return (← Computer.distanceTo s slot, slot)) =
      (.ok (slots.map fun slot => (s.metric.distance q (s.vectorAt slot), slot)), c') ∧
      c'.Bound (.ofMetric s.metric) q := by
  refine Computer.run_mapM slots ?_ hc
  intro slot hslot c hc
  refine ⟨c.counted 1, ?_, hc.counted 1⟩
  rw [Computer.run_bind_ok (Computer.run_distanceTo hc (hs.values_eq (hlt slot hslot))),
    Adapter.kernel_ofMetric]
  rfl

theorem scored_block (i j k l : Nat) (slots : List Nat) :
    scored s q (i :: j :: k :: l :: slots) =
      (s.metric.distanceFour q
        ⟨s.vectorAt i, s.vectorAt j, s.vectorAt k, s.vectorAt l⟩).toList.zip [i, j, k, l] ++
        scored s q slots := by
  simp only [scored, List.map_cons, Metric.scores_block]
  rfl

theorem scored_rest (h : slots.length < 4) :
    scored s q slots = slots.map fun slot => (s.metric.distance q (s.vectorAt slot), slot) := by
  have hlength : (slots.map s.vectorAt).length < 4 := by rwa [List.length_map]
  rw [scored, Metric.scores_rest hlength, List.map_map, List.map_prod_right_eq_zip]
  rfl

theorem map_snd_scored (s : Store Single) (q : List Score) (slots : List Nat) :
    (scored s q slots).map Prod.snd = slots := by
  have hlength := Metric.length_scores s.metric q (slots.map s.vectorAt)
  rw [List.length_map] at hlength
  exact List.map_snd_zip hlength.ge

theorem run_scoreSlots (hs : s.Coherent) (hlt : ∀ slot ∈ slots, slot < s.physical)
    (hc : c.Bound (.ofMetric s.metric) q) :
    ∃ c', c.run (scoreSlots s slots) = (.ok (scored s q slots), c') ∧
      c'.Bound (.ofMetric s.metric) q := by
  fun_induction scoreSlots s slots generalizing c with
  | case1 i j k l slots ih =>
    simp only [List.forall_mem_cons] at hlt
    obtain ⟨hi, hj, hk, hl, hlt⟩ := hlt
    have hfour := Computer.run_distanceToFour hc ⟨i, j, k, l⟩ ⟨_, _, _, _⟩ (hs.values_eq hi)
      (hs.values_eq hj) (hs.values_eq hk) (hs.values_eq hl)
    obtain ⟨c', hrun, hc'⟩ := ih hlt (hc.counted 4)
    refine ⟨c', ?_, hc'⟩
    rw [Computer.run_bind_ok hfour, Computer.run_bind_ok hrun, scored_block,
      Adapter.scoreFour_ofMetric]
    rfl
  | case2 rest hshort =>
    have hlength : rest.length < 4 := by
      match rest, hshort with
      | [], _ | [_], _ | [_, _], _ | [_, _, _], _ => simp
      | i :: j :: k :: l :: rest, hshort => exact (hshort i j k l rest rfl).elim
    rw [scored_rest hlength]
    exact run_scoreRest hs hlt hc

/-- One query is scored against all candidates. -/
theorem run_scan (hix : ix.store.Coherent) (selector : Option Selector)
    (hq : q.length = ix.dimension) (hc : c.adapter = .ofMetric ix.metric) :
    ∃ c', c.run (ix.scan selector q) = (.ok (scored ix.store q (ix.candidates selector)), c') ∧
      c'.adapter = .ofMetric ix.metric := by
  have hlt : ∀ slot ∈ ix.candidates selector, slot < ix.store.physical := by
    intro slot hslot
    exact List.mem_range.mp (List.mem_filter.mp hslot).1
  have hbound : Computer.Bound { c with query? := some q } (.ofMetric ix.store.metric) q :=
    ⟨hc, rfl⟩
  obtain ⟨c', hrun, hc'⟩ := run_scoreSlots hix hlt hbound
  refine ⟨c', ?_, hc'.adapter_eq⟩
  rw [scan, Computer.run_bind_ok (Computer.run_setQuery c hq), hrun]

theorem scanAll_eq (hix : ix.store.Coherent) (selector : Option Selector) (queries : List Score) :
    ix.scanAll selector queries = .ok ((Rows.split ix.dimension queries).map fun q =>
      scored ix.store q (ix.candidates selector)) := by
  have hstart : (Computer.ofStore ix.store).adapter = .ofMetric ix.metric := rfl
  obtain ⟨c', hrun, -⟩ := Computer.run_mapM (Rows.split ix.dimension queries)
    (fun q hq c hc => run_scan hix selector (Rows.length_of_mem_split hq) hc) hstart
  rw [scanAll, hrun]

end Index
end ExactNeighbors
