import ExactNeighbors.Distance.Primary
import ExactNeighbors.Number.Word
import ExactNeighbors.Proofs.Rows

/-! # Rows picked by number

Queries, candidates and scores are cut into rows of different widths, and what is left over is not
looked at. The scores come query by query, so that position `p` belongs to query `p / k`. A number
is beyond the base when its row does not end there, whatever the number is: this is so in a program
that checks the bounds of a row for overflow, and in one that does not as long as they fit.
-/
namespace ExactNeighbors

namespace Distance

variable {dim k i p : Nat} {missing : Score} {kernel : List Score → List Score → Score}
variable {out queries base scores : List Score} {ids : List (Option Nat)}
variable {overflow : Word.Overflow}

/-- Partial values all have values when they are the values of a list. -/
theorem mapM_id_eq_some_iff {xs : List (Option Score)} :
    xs.mapM id = some scores ↔ xs = scores.map some := by
  induction xs generalizing scores with
  | nil => cases scores <;> simp
  | cons x xs ih =>
    rw [List.mapM_cons]
    constructor
    · intro h
      obtain ⟨score, rfl, hrest⟩ := Option.bind_eq_some_iff.mp h
      obtain ⟨others, hothers, hscores⟩ := Option.bind_eq_some_iff.mp hrest
      cases hscores
      rw [ih.mp hothers, List.map_cons]
    · intro h
      obtain ⟨score, others, rfl, hscore, hothers⟩ := List.map_eq_cons_iff.mp h.symm
      rw [ih.mpr hothers.symm, ← hscore]
      rfl

theorem mapM_id_eq_none_iff {xs : List (Option Score)} : xs.mapM id = none ↔ none ∈ xs := by
  induction xs with
  | nil => simp
  | cons x xs ih =>
    cases x with
    | none => simp
    | some score => rw [List.mapM_cons, List.mem_cons, ← ih]; cases xs.mapM id <;> simp

/-- Where the bounds of a row fit a register, they need not be checked. -/
theorem indexedRow?_of_lt (overflow : Word.Overflow) (hdim : 0 < dim)
    (hfits : (i + 1) * dim < Word.size) (base : List Score) : indexedRow? overflow dim i base =
      if (i + 1) * dim ≤ base.length then some (Rows.rowAt dim i base) else none := by
  have hend : (i + 1) * dim = i * dim + dim := Nat.succ_mul i dim
  have hnext : i + 1 ≤ (i + 1) * dim := Nat.le_mul_of_pos_right _ hdim
  have hslice : indexedRow? overflow dim i base =
      Rows.slice? (i * dim) ((i + 1) * dim) base := by
    rw [indexedRow?, overflow.fit?_of_lt (by omega), overflow.fit?_of_lt (by omega)]
    dsimp only [bind, Option.bind]
    rw [overflow.fit?_of_lt hfits]
  rw [hslice]
  split
  · exact Rows.slice?_rowAt (by omega)
  · rw [Rows.slice?, if_neg (by omega)]

/-- Bounds that are checked lead to the row or to nothing: where one does not fit a register, no
buffer is that long. -/
theorem indexedRow?_trap (hdim : 0 < dim) (hbase : base.length < Word.size) (i : Nat) :
    indexedRow? .trap dim i base =
      if (i + 1) * dim ≤ base.length then some (Rows.rowAt dim i base) else none := by
  rcases Nat.lt_or_ge ((i + 1) * dim) Word.size with hfits | hlarge
  · exact indexedRow?_of_lt .trap hdim hfits base
  · have hstop : ∀ start : Nat, ((Word.Overflow.trap.fit? (i + 1)).bind fun next =>
        (Word.Overflow.trap.fit? (next * dim)).bind fun stop =>
          Rows.slice? start stop base) = none := by
      intro start
      cases hnext : Word.Overflow.trap.fit? (i + 1) with
      | none => rfl
      | some next =>
        cases Word.Overflow.eq_of_fit?_trap hnext
        rw [Option.bind_some, Word.Overflow.fit?_trap_of_le hlarge]
        rfl
    rw [if_neg (by omega), indexedRow?]
    cases Word.Overflow.trap.fit? (i * dim) with
    | none => rfl
    | some start => exact hstop start

/-- Bounds that are not checked keep their remainders. -/
theorem indexedRow?_wrap (dim i : Nat) (base : List Score) : indexedRow? .wrap dim i base =
    Rows.slice? (i * dim % Word.size) ((i + 1) * dim % Word.size) base := by
  rw [← Nat.mod_mul_mod (i + 1)]
  rfl

theorem indexedScore?_eq_none_iff {query : List Score} {id : Option Nat} :
    indexedScore? overflow missing kernel dim base query id = none ↔
      ∃ i, id = some i ∧ indexedRow? overflow dim i base = none := by
  cases id with
  | none => simp [indexedScore?]
  | some i => simp [indexedScore?]

/-- How many queries are scored: as many as all three buffers have rows. -/
def scoredQueries (out queries : List Score) (ids : List (Option Nat)) (dim k : Nat) : Nat :=
  if dim = 0 ∨ k = 0 then 0
  else min (min (queries.length / dim) (ids.length / k)) (out.length / k)

def pairedRows (out queries : List Score) (ids : List (Option Nat)) (dim k : Nat) :
    List (List Score × List (Option Nat)) :=
  ((Rows.split dim queries).zip (Rows.split k ids)).take (out.length / k)

theorem length_pairedRows :
    (pairedRows out queries ids dim k).length = scoredQueries out queries ids dim k := by
  rw [pairedRows, List.length_take, List.length_zip, Rows.length_split, Rows.length_split,
    Nat.min_comm, scoredQueries]
  split
  · rename_i h
    rcases h with rfl | rfl <;> simp
  · rfl

/-- There is one value for each of the `k` candidates of a query. -/
theorem length_of_mem_map_pairedRows {γ : Type} (f : List Score → Option Nat → γ) :
    ∀ values ∈ (pairedRows out queries ids dim k).map (fun row => row.2.map (f row.1)),
      values.length = k := by
  intro values hv
  obtain ⟨row, hrow, rfl⟩ := List.mem_map.mp hv
  rw [List.length_map]
  exact Rows.length_of_mem_split (List.of_mem_zip (List.mem_of_mem_take hrow)).2

theorem length_flatMap_pairedRows {γ : Type} (f : List Score → Option Nat → γ) :
    ((pairedRows out queries ids dim k).flatMap fun row => row.2.map (f row.1)).length =
      scoredQueries out queries ids dim k * k := by
  rw [List.flatMap_def, Rows.length_flatten (length_of_mem_map_pairedRows f), List.length_map,
    length_pairedRows]

/-- What is worked out candidate by candidate stands at the places of the candidates. -/
theorem getElem?_flatMap_pairedRows {γ : Type} (f : List Score → Option Nat → γ)
    (hp : p < scoredQueries out queries ids dim k * k) :
    ((pairedRows out queries ids dim k).flatMap fun row => row.2.map (f row.1))[p]? =
      ids[p]?.map (f (Rows.rowAt dim (p / k) queries)) := by
  have hk : 0 < k := Nat.pos_of_lt_mul_left hp
  have hi : p / k < ((pairedRows out queries ids dim k).map
      fun row => row.2.map (f row.1)).length := by
    rw [List.length_map, length_pairedRows]
    exact (Nat.div_lt_iff_lt_mul hk).mpr hp
  have hj : p % k < k := Nat.mod_lt p hk
  have hflat := Rows.getElem?_flatten (length_of_mem_map_pairedRows f) hi hj
  rw [Nat.div_add_mod'] at hflat
  rw [List.flatMap_def, hflat]
  simp only [List.getElem_map, pairedRows, List.getElem_take, List.getElem_zip,
    List.getElem?_map, Rows.getElem_split, Rows.getElem?_rowAt, if_pos hj, Nat.div_add_mod']

theorem dim_pos_of_lt (hp : p < scoredQueries out queries ids dim k * k) : 0 < dim := by
  refine Nat.pos_of_ne_zero fun hdim => ?_
  rw [scoredQueries, if_pos (Or.inl hdim), Nat.zero_mul] at hp
  exact Nat.not_lt_zero p hp

def candidateScores (overflow : Word.Overflow) (missing : Score)
    (kernel : List Score → List Score → Score) (out queries base : List Score)
    (ids : List (Option Nat)) (dim k : Nat) : List (Option Score) :=
  (pairedRows out queries ids dim k).flatMap fun row =>
    row.2.map (indexedScore? overflow missing kernel dim base row.1)

theorem byIndex?_eq_map (hdim : 0 < dim) (hk : 0 < k) :
    byIndex? overflow missing kernel out queries base ids dim k =
      ((candidateScores overflow missing kernel out queries base ids dim k).mapM id).map
        fun scores => scores ++ out.drop scores.length := by
  unfold byIndex? candidateScores
  rw [if_neg (by omega)]
  dsimp only
  rw [← pairedRows]
  have hjobs : ∀ rows : List (List Score × List (Option Nat)),
      (rows.flatMap fun row => row.2.map (indexedScore? overflow missing kernel dim base row.1)) =
        (rows.flatMap fun row => row.2.map fun id => (row.1, id)).map
          fun job => indexedScore? overflow missing kernel dim base job.1 job.2 := by
    intro rows
    simp only [List.map_flatMap, List.map_map, Function.comp_def]
  rw [hjobs, List.mapM_map]
  rfl

/-- One of the first candidates has a number with a property. -/
def Picks (ids : List (Option Nat)) (count : Nat) (property : Nat → Prop) : Prop :=
  ∃ p i, p < count ∧ ids[p]? = some (some i) ∧ property i

theorem byIndex?_eq_none_iff : byIndex? overflow missing kernel out queries base ids dim k = none ↔
    Picks ids (scoredQueries out queries ids dim k * k)
      fun i => indexedRow? overflow dim i base = none := by
  by_cases h : dim = 0 ∨ k = 0
  · have hcount : scoredQueries out queries ids dim k = 0 := if_pos h
    simp [byIndex?, h, Picks, hcount]
  · rw [byIndex?_eq_map (by omega) (by omega), Option.map_eq_none_iff, mapM_id_eq_none_iff]
    constructor
    · intro hnone
      obtain ⟨p, hp⟩ := List.mem_iff_getElem?.mp hnone
      have hlt : p < scoredQueries out queries ids dim k * k := by
        rw [← length_flatMap_pairedRows (indexedScore? overflow missing kernel dim base)]
        exact (List.getElem?_eq_some_iff.mp hp).1
      rw [candidateScores, getElem?_flatMap_pairedRows _ hlt] at hp
      obtain ⟨id, hid, hscore⟩ := Option.map_eq_some_iff.mp hp
      obtain ⟨i, rfl, hrow⟩ := indexedScore?_eq_none_iff.mp hscore
      exact ⟨p, i, hlt, hid, hrow⟩
    · rintro ⟨p, i, hp, hid, hrow⟩
      refine List.mem_iff_getElem?.mpr ⟨p, ?_⟩
      rw [candidateScores, getElem?_flatMap_pairedRows _ hp, hid, Option.map_some,
        indexedScore?_eq_none_iff.mpr ⟨i, rfl, hrow⟩]

/-- With checked bounds the rows that are missing are those that do not end within the base. -/
theorem picks_beyond_iff (hbase : base.length < Word.size) :
    (Picks ids (scoredQueries out queries ids dim k * k)
      fun i => indexedRow? .trap dim i base = none) ↔
    Picks ids (scoredQueries out queries ids dim k * k) fun i => base.length < (i + 1) * dim := by
  refine exists_congr fun p => exists_congr fun i => and_congr_right fun hp => ?_
  dsimp only
  rw [indexedRow?_trap (dim_pos_of_lt hp) hbase]
  split
  · exact and_congr_right fun _ => iff_of_false (by simp) (by omega)
  · exact and_congr_right fun _ => iff_of_true rfl (by omega)

/-- As long as the bounds of all rows that are looked at fit, it makes no difference whether they
are checked. -/
theorem byIndex?_wrap_eq_trap (hfits : ∀ p i, p < scoredQueries out queries ids dim k * k →
      ids[p]? = some (some i) → (i + 1) * dim < Word.size) :
    byIndex? .wrap missing kernel out queries base ids dim k =
      byIndex? .trap missing kernel out queries base ids dim k := by
  by_cases h : dim = 0 ∨ k = 0
  · rw [byIndex?, if_pos h, byIndex?, if_pos h]
  · have hscores : candidateScores .wrap missing kernel out queries base ids dim k =
        candidateScores .trap missing kernel out queries base ids dim k := by
      refine List.ext_getElem? fun p => ?_
      rcases Nat.lt_or_ge p (scoredQueries out queries ids dim k * k) with hp | hp
      · rw [candidateScores, candidateScores, getElem?_flatMap_pairedRows _ hp,
          getElem?_flatMap_pairedRows _ hp]
        cases hid : ids[p]? with
        | none => rfl
        | some id =>
          cases id with
          | none => rfl
          | some i =>
            have hlt := hfits p i hp hid
            rw [Option.map_some, Option.map_some, indexedScore?, indexedScore?,
              indexedRow?_of_lt .wrap (by omega) hlt, indexedRow?_of_lt .trap (by omega) hlt]
      · rw [candidateScores, candidateScores,
          List.getElem?_eq_none (by rw [length_flatMap_pairedRows]; exact hp),
          List.getElem?_eq_none (by rw [length_flatMap_pairedRows]; exact hp)]
    rw [byIndex?_eq_map (by omega) (by omega), byIndex?_eq_map (by omega) (by omega), hscores]

/-- What scoring rows by number has to leave in a buffer: one score for each candidate that is
looked at, and behind these what was there before. -/
structure ScoredByIndex (missing : Score) (kernel : List Score → List Score → Score)
    (row : Nat → List Score) (out queries : List Score) (ids : List (Option Nat)) (dim k : Nat)
    (scores : List Score) : Prop where
  length_eq : scores.length = out.length
  given : ∀ p i, p < scoredQueries out queries ids dim k * k → ids[p]? = some (some i) →
    scores[p]? = some (kernel (Rows.rowAt dim (p / k) queries) (row i))
  missing : ∀ p, p < scoredQueries out queries ids dim k * k → ids[p]? = some none →
    scores[p]? = some missing
  kept : ∀ p, scoredQueries out queries ids dim k * k ≤ p → scores[p]? = out[p]?

theorem count_le_length (out queries : List Score) (ids : List (Option Nat)) (dim k : Nat) :
    scoredQueries out queries ids dim k * k ≤ ids.length ∧
      scoredQueries out queries ids dim k * k ≤ out.length := by
  have hrows : scoredQueries out queries ids dim k ≤ ids.length / k ∧
      scoredQueries out queries ids dim k ≤ out.length / k := by
    unfold scoredQueries
    split
    · exact ⟨Nat.zero_le _, Nat.zero_le _⟩
    · exact ⟨Nat.le_trans (Nat.min_le_left _ _) (Nat.min_le_right _ _), Nat.min_le_right _ _⟩
  exact ⟨Nat.le_trans (Nat.mul_le_mul_right k hrows.1) (Nat.div_mul_le_self ids.length k),
    Nat.le_trans (Nat.mul_le_mul_right k hrows.2) (Nat.div_mul_le_self out.length k)⟩

/-- A candidate that is looked at has the score that is found for it. -/
theorem getElem?_of_mapM {fresh : List Score}
    (h : (candidateScores overflow missing kernel out queries base ids dim k).mapM id = some fresh)
    (hp : p < scoredQueries out queries ids dim k * k) {id : Option Nat} (hid : ids[p]? = some id) :
    ∃ score, fresh[p]? = some score ∧ indexedScore? overflow missing kernel dim base
      (Rows.rowAt dim (p / k) queries) id = some score := by
  have hvalue : fresh[p]?.map some = some (indexedScore? overflow missing kernel dim base
      (Rows.rowAt dim (p / k) queries) id) := by
    rw [← List.getElem?_map, ← mapM_id_eq_some_iff.mp h, candidateScores,
      getElem?_flatMap_pairedRows _ hp, hid, Option.map_some]
  obtain ⟨score, hfresh, hscore⟩ := Option.map_eq_some_iff.mp hvalue
  exact ⟨score, hfresh, hscore.symm⟩

/-- Whatever row a candidate has, it is scored against that row. -/
theorem scoredByIndex {row : Nat → List Score}
    (hrow : 0 < dim → ∀ i r, indexedRow? overflow dim i base = some r → r = row i)
    (h : byIndex? overflow missing kernel out queries base ids dim k = some scores) :
    ScoredByIndex missing kernel row out queries ids dim k scores := by
  by_cases hzero : dim = 0 ∨ k = 0
  · have hcount : scoredQueries out queries ids dim k = 0 := if_pos hzero
    rw [byIndex?, if_pos hzero] at h
    cases h
    exact ⟨rfl, by simp [hcount], by simp [hcount], fun _ _ => rfl⟩
  · rw [byIndex?_eq_map (by omega) (by omega)] at h
    obtain ⟨fresh, hfresh, rfl⟩ := Option.map_eq_some_iff.mp h
    have hlength : fresh.length = scoredQueries out queries ids dim k * k := by
      rw [← List.length_map (f := some), ← mapM_id_eq_some_iff.mp hfresh, candidateScores,
        length_flatMap_pairedRows]
    obtain ⟨-, hout⟩ := count_le_length out queries ids dim k
    constructor
    case length_eq =>
      rw [List.length_append, List.length_drop]
      omega
    case given =>
      intro p i hp hid
      obtain ⟨score, hscore, hfound⟩ := getElem?_of_mapM hfresh hp hid
      obtain ⟨r, hr, rfl⟩ := Option.map_eq_some_iff.mp hfound
      rw [List.getElem?_append_left (by omega), hscore, hrow (by omega) i r hr]
    case missing =>
      intro p hp hid
      obtain ⟨score, hscore, hnone⟩ := getElem?_of_mapM hfresh hp hid
      rw [List.getElem?_append_left (by omega), hscore, ← hnone]
      rfl
    case kept =>
      intro p hp
      rw [List.getElem?_append_right (by omega), List.getElem?_drop]
      congr 1
      omega

theorem scoredByIndex_trap (hbase : base.length < Word.size)
    (h : byIndex? .trap missing kernel out queries base ids dim k = some scores) :
    ScoredByIndex missing kernel (fun i => Rows.rowAt dim i base) out queries ids dim k scores := by
  refine scoredByIndex (fun hdim i r hr => ?_) h
  rw [indexedRow?_trap hdim hbase] at hr
  split at hr
  · exact (Option.some.inj hr).symm
  · cases hr

/-- What is in a buffer from the remainder of one bound up to that of the other. -/
def wrappedRow (dim i : Nat) (base : List Score) : List Score :=
  (base.drop (i * dim % Word.size)).take ((i + 1) * dim % Word.size - i * dim % Word.size)

theorem scoredByIndex_wrap
    (h : byIndex? .wrap missing kernel out queries base ids dim k = some scores) :
    ScoredByIndex missing kernel (fun i => wrappedRow dim i base) out queries ids dim k scores := by
  refine scoredByIndex (fun _ i r hr => ?_) h
  rw [indexedRow?_wrap, Rows.slice?] at hr
  split at hr
  · exact (Option.some.inj hr).symm
  · cases hr

/-- The remainders of the bounds of a row are not the bounds of anything in the base. -/
def WrapsBeyond (dim : Nat) (base : List Score) (i : Nat) : Prop :=
  (i + 1) * dim % Word.size < i * dim % Word.size ∨ base.length < (i + 1) * dim % Word.size

theorem indexedRow?_wrap_eq_none_iff :
    indexedRow? .wrap dim i base = none ↔ WrapsBeyond dim base i := by
  rw [indexedRow?_wrap, Rows.slice?, WrapsBeyond]
  split
  · exact iff_of_false (by simp) (by omega)
  · exact iff_of_true rfl (by omega)

/-- Whatever the lengths of the buffers are, where overflow is checked: both kernels fail exactly
when a candidate that is looked at picks a row that does not end within the base, and otherwise
score each of these candidates against its query and leave the rest of the buffer alone. Where it is
not checked, they do the same as long as the bounds of the rows fit a register. Beyond that the
remainders of the bounds decide. -/
theorem rows_scored_or_beyond (out queries base : List Score) (ids : List (Option Nat))
    (dim k : Nat) (hbase : base.length < Word.size) :
    let count := scoredQueries out queries ids dim k * k
    let row := fun i => Rows.rowAt dim i base
    let wrapped := fun i => wrappedRow dim i base
    ((l2SqrByIndex? .trap out queries base ids dim k = none ↔
        Picks ids count fun i => base.length < (i + 1) * dim) ∧
      (∀ scores, l2SqrByIndex? .trap out queries base ids dim k = some scores →
        ScoredByIndex Score.infinity l2Sqr row out queries ids dim k scores) ∧
      (innerProductByIndex? .trap out queries base ids dim k = none ↔
        Picks ids count fun i => base.length < (i + 1) * dim) ∧
      (∀ scores, innerProductByIndex? .trap out queries base ids dim k = some scores →
        ScoredByIndex Score.negInfinity innerProduct row out queries ids dim k scores) ∧
      count ≤ ids.length ∧ count ≤ out.length) ∧
    ((∀ p i, p < count → ids[p]? = some (some i) → (i + 1) * dim < Word.size) →
      l2SqrByIndex? .wrap out queries base ids dim k =
          l2SqrByIndex? .trap out queries base ids dim k ∧
        innerProductByIndex? .wrap out queries base ids dim k =
          innerProductByIndex? .trap out queries base ids dim k) ∧
    (l2SqrByIndex? .wrap out queries base ids dim k = none ↔
      Picks ids count (WrapsBeyond dim base)) ∧
    (∀ scores, l2SqrByIndex? .wrap out queries base ids dim k = some scores →
      ScoredByIndex Score.infinity l2Sqr wrapped out queries ids dim k scores) ∧
    (innerProductByIndex? .wrap out queries base ids dim k = none ↔
      Picks ids count (WrapsBeyond dim base)) ∧
    ∀ scores, innerProductByIndex? .wrap out queries base ids dim k = some scores →
      ScoredByIndex Score.negInfinity innerProduct wrapped out queries ids dim k scores := by
  intro count row wrapped
  have hbeyond : (Picks ids count fun i => indexedRow? .trap dim i base = none) ↔ _ :=
    picks_beyond_iff hbase
  have hwraps : (Picks ids count fun i => indexedRow? .wrap dim i base = none) ↔
      Picks ids count (WrapsBeyond dim base) := by
    simp only [Picks, indexedRow?_wrap_eq_none_iff]
  refine ⟨⟨byIndex?_eq_none_iff.trans hbeyond, fun _ => scoredByIndex_trap hbase,
      byIndex?_eq_none_iff.trans hbeyond, fun _ => scoredByIndex_trap hbase,
      count_le_length out queries ids dim k⟩,
    fun hfits => ⟨byIndex?_wrap_eq_trap hfits, byIndex?_wrap_eq_trap hfits⟩,
    byIndex?_eq_none_iff.trans hwraps, fun _ => scoredByIndex_wrap,
    byIndex?_eq_none_iff.trans hwraps, fun _ => scoredByIndex_wrap⟩

/-- One query has candidates and room. The number behind them is beyond the base and is not looked
at. The row of a number that leaves 64 bits on the way is beyond the base too, unless nothing checks
for it: then the number picks the first row. -/
theorem rows_scored_or_beyond_uneven :
    let out := [Score.nan, .nan, .nan, .half, .half]
    let queries := [Score.half, .half, .zero]
    let base := [Score.zero, .zero, .half, .half, .half]
    let ids := [some 1, none, some 2, some 0, none]
    let wide := [none, some (Word.size / 2)]
    base.length < Word.size ∧
      (∃ scores, l2SqrByIndex? .trap out queries base ids 2 2 = some scores ∧ scores.length = 5 ∧
        scores[0]? = some (l2Sqr [Score.half, .half] [Score.half, .half]) ∧
        scores[1]? = some Score.infinity ∧ scores[2]? = some Score.nan ∧
        scores[4]? = some Score.half) ∧
      innerProductByIndex? .trap out queries base wide 2 2 = none ∧
      ∃ scores, innerProductByIndex? .wrap out queries base wide 2 2 = some scores ∧
        scores[1]? = some (innerProduct [Score.half, .half] [Score.zero, .zero]) := by
  intro out queries base ids wide
  have hbase : base.length < Word.size := by decide
  obtain ⟨⟨hnone, hsome, -⟩, -⟩ := rows_scored_or_beyond out queries base ids 2 2 hbase
  obtain ⟨⟨-, -, hbeyond, -⟩, -, -, -, hwraps, hwrapped⟩ :=
    rows_scored_or_beyond out queries base wide 2 2 hbase
  have hcount : scoredQueries out queries ids 2 2 * 2 = 2 := by decide
  have hwithin : ¬Picks ids 2 fun i => base.length < (i + 1) * 2 := by
    rintro ⟨p, i, hp, hid, hlt⟩
    match p, hp with
    | 0, _ => cases hid; exact absurd hlt (by decide)
    | 1, _ => cases hid
  have hcount' : scoredQueries out queries wide 2 2 * 2 = 2 := by decide
  have hkept : ¬Picks wide 2 (WrapsBeyond 2 base) := by
    rintro ⟨p, i, hp, hid, hwrap⟩
    match p, hp with
    | 0, _ => cases hid
    | 1, _ => cases hid; exact hwrap.elim (by decide) (by decide)
  rw [hcount] at hnone
  rw [hcount'] at hwraps
  refine ⟨hbase, ?_, hbeyond.mpr ⟨1, Word.size / 2, by decide, rfl, by decide⟩, ?_⟩
  · cases hscores : l2SqrByIndex? .trap out queries base ids 2 2 with
    | none => exact absurd (hnone.mp hscores) hwithin
    | some scores =>
      have h := hsome scores hscores
      exact ⟨scores, rfl, h.length_eq, h.given 0 1 (by decide) rfl, h.missing 1 (by decide) rfl,
        h.kept 2 (by decide), h.kept 4 (by decide)⟩
  · cases hscores : innerProductByIndex? .wrap out queries base wide 2 2 with
    | none => exact absurd (hwraps.mp hscores) hkept
    | some scores =>
      exact ⟨scores, rfl, (hwrapped scores hscores).given 1 (Word.size / 2) (by decide) rfl⟩

end Distance
end ExactNeighbors
