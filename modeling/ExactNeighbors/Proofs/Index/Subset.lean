import ExactNeighbors.Index.Subset
import ExactNeighbors.Proofs.Distance.ByIndex
import ExactNeighbors.Proofs.Index.Reachable
import ExactNeighbors.Proofs.Computer

/-! # Given candidates get single scores

Once all checks are passed no candidate lies outside of the buffer, and each is scored singly. The
scores come query by query, in the order of the candidates.
-/
namespace ExactNeighbors

namespace Distance

variable {dim k : Nat} {missing : Score} {kernel : List Score → List Score → Score}
variable {base queries : List Score} {ids : List (Option Nat)}

/-- What a candidate number is worth, given what the rows are worth. -/
def scoreOr (missing : Score) (score : Nat → Score) : Option Nat → Score
  | none => missing
  | some i => score i

theorem indexedScore?_eq (hdim : 0 < dim) (hbase : base.length < Word.size) {query : List Score}
    {id : Option Nat} (hid : ∀ i, id = some i → i * dim + dim ≤ base.length) :
    indexedScore? .trap missing kernel dim base query id =
      some (scoreOr missing (fun i => kernel query (Rows.rowAt dim i base)) id) := by
  cases id with
  | none => rfl
  | some i =>
    rw [indexedScore?, indexedRow?_trap hdim hbase, if_pos (Nat.succ_mul i dim ▸ hid i rfl)]
    rfl

/-- There is one score per candidate, when there are `k` candidates for each query. -/
theorem length_flatMap_split (score : List Score → Option Nat → Score) (hk : 0 < k)
    (hids : ids.length = queries.length / dim * k) :
    (((Rows.split dim queries).zip (Rows.split k ids)).flatMap fun row =>
      row.2.map (score row.1)).length = queries.length / dim * k := by
  have hwidth : ∀ scores ∈ ((Rows.split dim queries).zip (Rows.split k ids)).map
      (fun row => row.2.map (score row.1)), scores.length = k := by
    intro scores hs
    obtain ⟨row, hrow, rfl⟩ := List.mem_map.mp hs
    rw [List.length_map, Rows.length_of_mem_split (List.of_mem_zip hrow).2]
  rw [List.flatMap_def, Rows.length_flatten hwidth, List.length_map, List.length_zip,
    Rows.length_split, Rows.length_split, hids, Nat.mul_div_cancel _ hk, Nat.min_self]

/-- With as many candidates as there is room for scores, and none of them beyond the buffer, every
score is overwritten. -/
theorem byIndex?_eq {out : List Score} (hdim : 0 < dim) (hk : 0 < k)
    (hbase : base.length < Word.size)
    (hout : out.length = queries.length / dim * k) (hids : ids.length = out.length)
    (hvalid : ∀ i, some i ∈ ids → i * dim + dim ≤ base.length) :
    byIndex? .trap missing kernel out queries base ids dim k =
      some (((Rows.split dim queries).zip (Rows.split k ids)).flatMap fun row =>
        row.2.map (scoreOr missing fun i => kernel row.1 (Rows.rowAt dim i base))) := by
  have hcount : out.length / k = queries.length / dim := by rw [hout, Nat.mul_div_cancel _ hk]
  have hrows : pairedRows out queries ids dim k = (Rows.split dim queries).zip (Rows.split k ids) := by
    apply List.take_of_length_le
    rw [List.length_zip, Rows.length_split, Rows.length_split, hids, hcount, Nat.min_self]
  have hvalues : candidateScores .trap missing kernel out queries base ids dim k =
      (((Rows.split dim queries).zip (Rows.split k ids)).flatMap fun row =>
        row.2.map (scoreOr missing fun i => kernel row.1 (Rows.rowAt dim i base))).map some := by
    rw [candidateScores, hrows, List.map_flatMap]
    refine List.flatMap_congr fun row hrow => ?_
    rw [List.map_map]
    refine List.map_congr_left fun id hid => indexedScore?_eq hdim hbase fun i hi => ?_
    exact hvalid i (hi ▸ Rows.mem_of_mem_split (List.of_mem_zip hrow).2 hid)
  rw [byIndex?_eq_map hdim hk, mapM_id_eq_some_iff.mpr hvalues, Option.map_some,
    length_flatMap_split (fun query => scoreOr missing fun i =>
      kernel query (Rows.rowAt dim i base)) hk (hids.trans hout), ← hout, List.drop_length,
    List.append_nil]

end Distance

namespace Metric

def worst : Metric → Score
  | .innerProduct => Score.negInfinity
  | _ => Score.infinity

end Metric

namespace Index

variable {ix : Index} {q queries : List Score} {k : Nat} {slots : List (Option Nat)}

/-- Why candidates cannot be scored, if they cannot. -/
def subsetFault? (ix : Index) (queries : List Score) (k : Nat) (slots : List (Option Nat)) :
    Option IndexError :=
  let rest := queries.length % ix.dimension
  let expected := queries.length / ix.dimension * k
  if !ix.metric.isPrimary then some (.unsupportedMetric ix.metric .subsetScoring)
  else if k = 0 then some (.invalidK k)
  else if rest ≠ 0 then some (.dimensionMismatch ix.dimension rest)
  else if Word.size ≤ expected then some (.invalidK k)
  else if slots.length ≠ expected then some (.candidateCount expected slots.length)
  else ((slots.filterMap id).find? (ix.store.physical ≤ ·)).map fun slot =>
    .outOfBounds slot 1 ix.store.physical

theorem subsetFault?_eq_none_iff : ix.subsetFault? queries k slots = none ↔
    ix.metric.isPrimary = true ∧ k ≠ 0 ∧ queries.length % ix.dimension = 0 ∧
      queries.length / ix.dimension * k < Word.size ∧
      slots.length = queries.length / ix.dimension * k ∧
      ∀ slot, some slot ∈ slots → slot < ix.store.physical := by
  simp [subsetFault?, ite_eq_iff, -List.find?_filterMap]

def candidateScore (ix : Index) (q : List Score) : Option Nat → Score :=
  Distance.scoreOr ix.metric.worst fun slot => ix.metric.distance q (ix.store.vectorAt slot)

def subsetScores (ix : Index) (queries : List Score) (k : Nat) (slots : List (Option Nat)) :
    List Score :=
  ((Rows.split ix.dimension queries).zip (Rows.split k slots)).flatMap fun (q, candidates) =>
    candidates.map (ix.candidateScore q)

theorem Coherent.codeLength_eq (h : ix.Coherent) : ix.store.codec.codeLength = ix.dimension := by
  rw [h.codec_eq]
  rfl

theorem Coherent.rowAt_eq (h : ix.Coherent) (slot : Nat) :
    Rows.rowAt ix.dimension slot (ix.store.codes.map Single.value) = ix.store.vectorAt slot := by
  rw [← h.codeLength_eq, Rows.rowAt, ← List.map_drop, ← List.map_take]
  rfl

theorem Coherent.length_values_lt (h : ix.Coherent) :
    (ix.store.codes.map Single.value).length < Word.size := by
  rw [List.length_map]
  exact h.fits.codes_lt_size (by rw [h.codec_eq]; exact Nat.succ_pos 3)

theorem Coherent.byIndex?_eq (h : ix.Coherent) (out : List Score) (hk : 0 < k)
    (hout : out.length = queries.length / ix.dimension * k) (hids : slots.length = out.length)
    (hslots : ∀ slot, some slot ∈ slots → slot < ix.store.physical) :
    Distance.byIndex? .trap ix.metric.worst ix.metric.distance out queries
      (ix.store.codes.map Single.value) slots ix.dimension k =
        some (ix.subsetScores queries k slots) := by
  have hvalid : ∀ slot, some slot ∈ slots →
      slot * ix.dimension + ix.dimension ≤ (ix.store.codes.map Single.value).length := by
    intro slot hslot
    have hend := h.store.codeRow_end_le (hslots slot hslot)
    rwa [h.codeLength_eq, ← List.length_map (f := Single.value)] at hend
  have hdim : 0 < ix.dimension := h.store.dimension_pos
  rw [Distance.byIndex?_eq hdim hk h.length_values_lt hout hids hvalid]
  simp only [h.rowAt_eq]
  rfl

theorem scoreSlotSubset_eq (h : ix.Coherent) (queries : List Score) (k : Nat)
    (slots : List (Option Nat)) : ix.scoreSlotSubset queries k slots =
      match ix.subsetFault? queries k slots with
      | some e => .error e
      | none => .ok (ix.subsetScores queries k slots) := by
  unfold scoreSlotSubset subsetFault? queryCount
  dsimp only
  split
  · rfl
  split
  · rfl
  split
  · rfl
  rename_i hm hk hrest
  simp only [bind, Except.bind, pure, Except.pure]
  split
  · rfl
  split
  · rfl
  rename_i hsize hlength
  cases hfind : (slots.filterMap id).find? (ix.store.physical ≤ ·) with
  | some slot => rfl
  | none =>
    have hslots : ∀ slot, some slot ∈ slots → slot < ix.store.physical := by
      intro slot hslot
      have hle := List.find?_eq_none.mp hfind slot (List.mem_filterMap.mpr ⟨_, hslot, rfl⟩)
      simpa using hle
    have hscores := h.byIndex?_eq
      (List.replicate (queries.length / ix.dimension * k) Score.zero) (by omega)
      List.length_replicate (by rw [List.length_replicate]; omega) hslots
    rw [h.store.codesRange_all]
    dsimp only [Option.map_none]
    -- Two metrics are left, and each has a kernel of its own.
    cases hmetric : ix.metric with
    | l2 =>
      rw [hmetric] at hscores
      dsimp only [Distance.l2SqrByIndex?]
      rw [show Distance.byIndex? .trap Score.infinity Distance.l2Sqr _ _ _ _ _ _ = _ from hscores]
    | innerProduct =>
      rw [hmetric] at hscores
      dsimp only [Distance.innerProductByIndex?]
      rw [show Distance.byIndex? .trap Score.negInfinity Distance.innerProduct _ _ _ _ _ _ = _ from hscores]
    | _ => rw [hmetric] at hm; exact absurd rfl hm

theorem scoreLabelSubset_eq (ix : Index) (queries : List Score) (k : Nat)
    (labels : List (Option Nat)) : ix.scoreLabelSubset queries k labels =
      (labels.mapM ix.resolveCandidate).bind (ix.scoreSlotSubset queries k) := rfl

theorem length_scoreSlotSubset (h : ix.Coherent) {scores : List Score}
    (hscores : ix.scoreSlotSubset queries k slots = .ok scores) :
    scores.length = queries.length / ix.dimension * k ∧ scores.length < Word.size := by
  rw [scoreSlotSubset_eq h] at hscores
  cases hfault : ix.subsetFault? queries k slots with
  | some e =>
    rw [hfault] at hscores
    cases hscores
  | none =>
    rw [hfault] at hscores
    cases hscores
    obtain ⟨-, hk, -, hsize, hcandidates, -⟩ := subsetFault?_eq_none_iff.mp hfault
    have hlength := Distance.length_flatMap_split ix.candidateScore (Nat.pos_of_ne_zero hk)
      hcandidates
    exact ⟨hlength, hlength ▸ hsize⟩

/-- One query and one candidate slot. -/
theorem scoreSlotSubset_one (h : ix.Coherent) (hm : ix.metric.isPrimary = true)
    (hq : q.length = ix.dimension) {slot : Nat} (hslot : slot < ix.store.physical) :
    ix.scoreSlotSubset q 1 [some slot] =
      .ok [ix.metric.distance q (ix.store.vectorAt slot)] := by
  have hdim : 0 < ix.dimension := h.store.dimension_pos
  have hfault : ix.subsetFault? q 1 [some slot] = none := by
    have hsize : ¬Word.size ≤ 1 := by decide
    simp [subsetFault?, hm, hq, Nat.div_self hdim, hsize, Nat.not_le.mpr hslot]
  rw [scoreSlotSubset_eq h, hfault, subsetScores, Rows.split_self hdim hq,
    Rows.split_self Nat.one_pos (rfl : [some slot].length = 1)]
  rfl

theorem scoreLabelSubset_one {label slot : Nat} (hs : ix.store.slotOf? label = some slot)
    (q : List Score) :
    ix.scoreLabelSubset q 1 [some label] = ix.scoreSlotSubset q 1 [some slot] := by
  have hresolve : ix.resolveCandidate (some label) = .ok (some slot) := by
    rw [resolveCandidate, Store.resolve, hs]
    rfl
  rw [scoreLabelSubset_eq, List.mapM_cons, hresolve]
  rfl

end Index
end ExactNeighbors
