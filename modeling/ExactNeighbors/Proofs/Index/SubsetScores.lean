import ExactNeighbors.Proofs.Index.Subset

/-! # Which candidates are scored, and how

The checks come one after the other, and the first that fails decides the refusal. Once all are
passed, the score of candidate `j` of query `i` stands at position `i * k + j`, and every position
is of that form. Labels are resolved before anything else is looked at.
-/
namespace ExactNeighbors

namespace Index

variable {ix : Index} {queries : List Score} {k : Nat} {slots : List (Option Nat)}
variable {labels : List (Option Nat)} {e : IndexError}

/-- Why candidate slots are refused, each reason with the checks that were passed before. -/
inductive SubsetFault (ix : Index) (queries : List Score) (k : Nat) (slots : List (Option Nat)) :
    IndexError → Prop where
  | metric (unsupported : ix.metric ≠ .l2 ∧ ix.metric ≠ .innerProduct) :
      SubsetFault ix queries k slots (.unsupportedMetric ix.metric .subsetScoring)
  | zero (primary : ix.metric = .l2 ∨ ix.metric = .innerProduct) (none : k = 0) :
      SubsetFault ix queries k slots (.invalidK k)
  | ragged (primary : ix.metric = .l2 ∨ ix.metric = .innerProduct) (pos : 1 ≤ k)
      (rest : queries.length % ix.dimension ≠ 0) :
      SubsetFault ix queries k slots
        (.dimensionMismatch ix.dimension (queries.length % ix.dimension))
  | product (primary : ix.metric = .l2 ∨ ix.metric = .innerProduct) (pos : 1 ≤ k)
      (whole : queries.length % ix.dimension = 0)
      (large : Word.size ≤ queries.length / ix.dimension * k) :
      SubsetFault ix queries k slots (.invalidK k)
  | count (primary : ix.metric = .l2 ∨ ix.metric = .innerProduct) (pos : 1 ≤ k)
      (whole : queries.length % ix.dimension = 0)
      (small : queries.length / ix.dimension * k < Word.size)
      (wrong : slots.length ≠ queries.length / ix.dimension * k) :
      SubsetFault ix queries k slots
        (.candidateCount (queries.length / ix.dimension * k) slots.length)
  | outside (primary : ix.metric = .l2 ∨ ix.metric = .innerProduct) (pos : 1 ≤ k)
      (whole : queries.length % ix.dimension = 0)
      (small : queries.length / ix.dimension * k < Word.size)
      (right : slots.length = queries.length / ix.dimension * k)
      (before after : List (Option Nat)) (slot : Nat) (here : slots = before ++ some slot :: after)
      (beyond : ix.store.physical ≤ slot)
      (first : ∀ other, some other ∈ before → other < ix.store.physical) :
      SubsetFault ix queries k slots (.outOfBounds slot 1 ix.store.physical)

structure Scorable (ix : Index) (queries : List Score) (k : Nat) (slots : List (Option Nat)) :
    Prop where
  primary : ix.metric = .l2 ∨ ix.metric = .innerProduct
  pos : 1 ≤ k
  whole : queries.length % ix.dimension = 0
  small : queries.length / ix.dimension * k < Word.size
  count : slots.length = queries.length / ix.dimension * k
  inside : ∀ slot, some slot ∈ slots → slot < ix.store.physical

structure ScoresSubset (ix : Index) (queries : List Score) (k : Nat) (slots : List (Option Nat))
    (scores : List Score) : Prop where
  length_eq : scores.length = queries.length / ix.dimension * k
  missing : ∀ i j, i < queries.length / ix.dimension → j < k → slots[i * k + j]? = some none →
    scores[i * k + j]? = some ix.metric.worst
  given : ∀ i j slot, i < queries.length / ix.dimension → j < k →
    slots[i * k + j]? = some (some slot) → ∃ code, ix.store.code slot = .ok code ∧
      scores[i * k + j]? =
        some (ix.metric.distance (Rows.rowAt ix.dimension i queries) (code.map Single.value))

theorem isPrimary_iff {m : Metric} : m.isPrimary = true ↔ m = .l2 ∨ m = .innerProduct := by
  cases m <;> simp [Metric.isPrimary]

theorem find?_given_eq_some_iff {p : Nat → Bool} {slot : Nat} :
    (slots.filterMap id).find? p = some slot ↔ p slot = true ∧ ∃ before after,
      slots = before ++ some slot :: after ∧ ∀ other, some other ∈ before → p other = false := by
  rw [List.find?_eq_some_iff_append]
  constructor
  · rintro ⟨hp, first, others, hsplit, hfirst⟩
    obtain ⟨before, rest, rfl, rfl, hrest⟩ := List.filterMap_eq_append_iff.mp hsplit
    obtain ⟨gaps, _, after, rfl, hgaps, rfl, -⟩ := List.filterMap_eq_cons_iff.mp hrest
    refine ⟨hp, before ++ gaps, after, by simp, fun other ho => ?_⟩
    rcases List.mem_append.mp ho with ho | ho
    · simpa using hfirst other (List.mem_filterMap.mpr ⟨_, ho, rfl⟩)
    · cases hgaps _ ho
  · rintro ⟨hp, before, after, rfl, hbefore⟩
    refine ⟨hp, before.filterMap id, after.filterMap id, by simp, fun other ho => ?_⟩
    obtain ⟨_, ho, rfl⟩ := List.mem_filterMap.mp ho
    simp [hbefore other ho]

theorem SubsetFault.eq_some (fault : ix.SubsetFault queries k slots e) :
    ix.subsetFault? queries k slots = some e := by
  unfold subsetFault?
  dsimp only
  cases fault with
  | metric unsupported =>
    have hm : ¬ix.metric.isPrimary = true := fun h => not_or.mpr unsupported (isPrimary_iff.mp h)
    rw [if_pos (by simp [hm])]
  | zero primary none =>
    rw [if_neg (by simp [isPrimary_iff.mpr primary]), if_pos none]
  | ragged primary pos rest =>
    rw [if_neg (by simp [isPrimary_iff.mpr primary]), if_neg (by omega), if_pos rest]
  | product primary pos whole large =>
    rw [if_neg (by simp [isPrimary_iff.mpr primary]), if_neg (by omega), if_neg (by omega),
      if_pos large]
  | count primary pos whole small wrong =>
    rw [if_neg (by simp [isPrimary_iff.mpr primary]), if_neg (by omega), if_neg (by omega),
      if_neg (by omega), if_pos wrong]
  | outside primary pos whole small right before after slot here beyond first =>
    have hfind : (slots.filterMap id).find? (ix.store.physical ≤ ·) = some slot := by
      refine find?_given_eq_some_iff.mpr ⟨by simpa using beyond, before, after, here, ?_⟩
      intro other ho
      simpa using first other ho
    rw [if_neg (by simp [isPrimary_iff.mpr primary]), if_neg (by omega), if_neg (by omega),
      if_neg (by omega), if_neg (by omega), hfind]
    rfl

theorem subsetFault_of_eq_some (h : ix.subsetFault? queries k slots = some e) :
    ix.SubsetFault queries k slots e := by
  unfold subsetFault? at h
  dsimp only at h
  by_cases hm : ix.metric.isPrimary = true
  · have hprimary := isPrimary_iff.mp hm
    rw [if_neg (by simp [hm])] at h
    split at h
    · cases h
      exact .zero hprimary ‹_›
    · have hpos : 1 ≤ k := by omega
      split at h
      · cases h
        exact .ragged hprimary hpos ‹_›
      · have hwhole : queries.length % ix.dimension = 0 := by omega
        split at h
        · cases h
          exact .product hprimary hpos hwhole ‹_›
        · have hsmall := Nat.lt_of_not_le ‹_›
          split at h
          · cases h
            exact .count hprimary hpos hwhole hsmall ‹_›
          · obtain ⟨slot, hslot, rfl⟩ := Option.map_eq_some_iff.mp h
            obtain ⟨hbeyond, before, after, here, hfirst⟩ := find?_given_eq_some_iff.mp hslot
            refine .outside hprimary hpos hwhole hsmall (by omega) before after slot here
              (by simpa using hbeyond) fun other ho => ?_
            simpa using hfirst other ho
  · rw [if_pos (by simp [hm])] at h
    cases h
    exact .metric (not_or.mp (hm ∘ isPrimary_iff.mpr))

theorem scorable_iff : ix.Scorable queries k slots ↔ ix.subsetFault? queries k slots = none := by
  rw [subsetFault?_eq_none_iff, isPrimary_iff]
  constructor
  · intro h
    exact ⟨h.primary, Nat.ne_of_gt h.pos, h.whole, h.small, h.count, h.inside⟩
  · rintro ⟨primary, pos, whole, small, count, inside⟩
    exact ⟨primary, Nat.pos_of_ne_zero pos, whole, small, count, inside⟩

theorem Scorable.getElem?_subsetScores (h : ix.Scorable queries k slots) {i j : Nat}
    (hi : i < queries.length / ix.dimension) (hj : j < k) :
    (ix.subsetScores queries k slots)[i * k + j]? =
      slots[i * k + j]?.map (ix.candidateScore (Rows.rowAt ix.dimension i queries)) := by
  have hcount : (Rows.split k slots).length = queries.length / ix.dimension :=
    Rows.length_split_whole h.pos h.count
  have hrows : ∀ row ∈ ((Rows.split ix.dimension queries).zip (Rows.split k slots)).map
      (fun row => row.2.map (ix.candidateScore row.1)), row.length = k := by
    intro row hrow
    obtain ⟨pair, hpair, rfl⟩ := List.mem_map.mp hrow
    rw [List.length_map, Rows.length_of_mem_split (List.of_mem_zip hpair).2]
  have hi' : i < (((Rows.split ix.dimension queries).zip (Rows.split k slots)).map
      fun row => row.2.map (ix.candidateScore row.1)).length := by
    rw [List.length_map, List.length_zip, hcount, Rows.length_split]
    omega
  rw [subsetScores, List.flatMap_def, Rows.getElem?_flatten hrows hi' hj]
  simp only [List.getElem_map, List.getElem_zip, List.getElem?_map, Rows.getElem_split,
    Rows.getElem?_rowAt, if_pos hj]

theorem Scorable.scoresSubset (h : ix.Coherent) (hs : ix.Scorable queries k slots) :
    ix.ScoresSubset queries k slots (ix.subsetScores queries k slots) where
  length_eq := Distance.length_flatMap_split ix.candidateScore hs.pos hs.count
  missing i j hi hj hnone := by
    rw [hs.getElem?_subsetScores hi hj, hnone]
    rfl
  given i j slot hi hj hsome := by
    have hslot := hs.inside slot (List.mem_of_getElem? hsome)
    refine ⟨_, h.store.code_eq hslot, ?_⟩
    rw [hs.getElem?_subsetScores hi hj, hsome]
    rfl

theorem scoreSlotSubset_eq_ok_iff (h : ix.Coherent) {scores : List Score} :
    ix.scoreSlotSubset queries k slots = .ok scores ↔
      ix.Scorable queries k slots ∧ ix.subsetScores queries k slots = scores := by
  rw [scoreSlotSubset_eq h, scorable_iff]
  cases ix.subsetFault? queries k slots with
  | none => simp
  | some e => simp

theorem scoreSlotSubset_eq_error_iff (h : ix.Coherent) :
    ix.scoreSlotSubset queries k slots = .error e ↔ ix.SubsetFault queries k slots e := by
  have hfault : ix.scoreSlotSubset queries k slots = .error e ↔
      ix.subsetFault? queries k slots = some e := by
    rw [scoreSlotSubset_eq h]
    cases ix.subsetFault? queries k slots with
    | none => simp
    | some e' => simp
  exact hfault.trans ⟨subsetFault_of_eq_some, SubsetFault.eq_some⟩

theorem mapM_resolveCandidate (h : ∀ label, some label ∈ labels → ∃ slot,
    ix.store.slotOf? label = some slot) :
    labels.mapM ix.resolveCandidate = .ok (labels.map (·.bind ix.store.slotOf?)) := by
  refine Rows.mapM_eq_pure_map fun candidate hc => ?_
  cases candidate with
  | none => rfl
  | some label =>
    obtain ⟨slot, hs⟩ := h label hc
    simp only [resolveCandidate, Store.resolve, hs, Option.bind_some]
    rfl

theorem mapM_resolveCandidate_error {before after : List (Option Nat)} {label : Nat}
    (hbefore : ∀ other, some other ∈ before → ∃ slot, ix.store.slotOf? other = some slot)
    (hlabel : ix.store.slotOf? label = none) :
    (before ++ some label :: after).mapM ix.resolveCandidate = .error (.labelNotFound label) := by
  rw [List.mapM_append, mapM_resolveCandidate hbefore, List.mapM_cons, resolveCandidate,
    Store.resolve, hlabel]
  rfl

/-- The slots of labels that resolve are never out of bounds. -/
theorem SubsetFault.not_outside (h : ix.Coherent) {start count total : Nat} :
    ¬ix.SubsetFault queries k (labels.map (·.bind ix.store.slotOf?))
      (.outOfBounds start count total) := by
  intro fault
  cases fault with
  | outside _ _ _ _ _ before after _ here beyond _ =>
    have hmem : some start ∈ labels.map (·.bind ix.store.slotOf?) := by rw [here]; simp
    obtain ⟨candidate, -, hslot⟩ := List.mem_map.mp hmem
    obtain ⟨label, -, hs⟩ := Option.bind_eq_some_iff.mp hslot
    exact Nat.not_lt.mpr beyond (h.store.lt_physical_of_slotOf? hs)

/-- Scoring slots succeeds exactly when every check is passed, is otherwise refused for the first
check that is not, and gives each candidate its single score, dead or not. Scoring labels is refused
for the first label that does not resolve, before any of these checks, and is otherwise scoring
their slots. -/
theorem subset_scored_or_refused (h : ix.Reachable) (queries : List Score) (k : Nat) :
    (∀ slots,
      ((∃ scores, ix.scoreSlotSubset queries k slots = .ok scores) ↔
        ix.Scorable queries k slots) ∧
      (∀ scores, ix.scoreSlotSubset queries k slots = .ok scores →
        ix.ScoresSubset queries k slots scores) ∧
      (∀ e, ix.scoreSlotSubset queries k slots = .error e ↔ ix.SubsetFault queries k slots e) ∧
      ∀ exclude, ({ ix with excludesTombstones := exclude } : Index).scoreSlotSubset queries k slots =
        ix.scoreSlotSubset queries k slots) ∧
    (∀ before label after,
      (∀ other, some other ∈ before → ∃ slot, ix.store.slotOf? other = some slot) →
      ix.store.slotOf? label = none →
      ix.scoreLabelSubset queries k (before ++ some label :: after) =
        .error (.labelNotFound label)) ∧
    ∀ labels : List (Option Nat),
      (∀ label, some label ∈ labels → ∃ slot, ix.store.slotOf? label = some slot) →
      ix.scoreLabelSubset queries k labels =
        ix.scoreSlotSubset queries k (labels.map (·.bind ix.store.slotOf?)) ∧
      ∀ start count total,
        ix.scoreLabelSubset queries k labels ≠ .error (.outOfBounds start count total) := by
  have hc := h.coherent
  refine ⟨fun slots => ⟨⟨?_, ?_⟩, ?_, fun e => scoreSlotSubset_eq_error_iff hc, fun exclude => rfl⟩,
    ?_, ?_⟩
  · rintro ⟨scores, hscores⟩
    exact ((scoreSlotSubset_eq_ok_iff hc).mp hscores).1
  · intro hs
    exact ⟨_, (scoreSlotSubset_eq_ok_iff hc).mpr ⟨hs, rfl⟩⟩
  · intro scores hscores
    obtain ⟨hs, rfl⟩ := (scoreSlotSubset_eq_ok_iff hc).mp hscores
    exact hs.scoresSubset hc
  · intro before label after hbefore hlabel
    rw [scoreLabelSubset_eq, mapM_resolveCandidate_error hbefore hlabel]
    rfl
  · intro labels hlabels
    have heq : ix.scoreLabelSubset queries k labels =
        ix.scoreSlotSubset queries k (labels.map (·.bind ix.store.slotOf?)) := by
      rw [scoreLabelSubset_eq, mapM_resolveCandidate hlabels]
      rfl
    refine ⟨heq, fun start count total houtside => ?_⟩
    rw [heq, scoreSlotSubset_eq_error_iff hc] at houtside
    exact SubsetFault.not_outside hc houtside

/-- Slot 1 is dead and is scored all the same. Of two slots that there are not, the first is
named. -/
theorem subset_scored_or_refused_dead :
    let one : Single := ⟨0x3f800000⟩
    let two : Single := ⟨0x40000000⟩
    let queries := [one.value, two.value]
    let slots := [some 1, none, some 2, some 0]
    ∃ ix₀, Index.new .host 1 .innerProduct = .ok ix₀ ∧
      let ix := ix₀.run [.add [one, two, two], .delete [1]]
      (ix.Reachable ∧ ix.store.isDeleted 1 = true ∧ ix.Scorable queries 2 slots) ∧
      (∃ scores, ix.scoreSlotSubset queries 2 slots = .ok scores ∧ scores.length = 4 ∧
        scores[0]? = some two.value ∧ scores[1]? = some Score.negInfinity) ∧
      ix.scoreSlotSubset queries 2 [some 1, none, some 5, some 9] = .error (.outOfBounds 5 1 3) ∧
      ix.scoreLabelSubset [] 0 [none, some 1, some 7] = .error (.labelNotFound 7) ∧
      ix.scoreLabelSubset queries 2 slots = ix.scoreSlotSubset queries 2 slots := by
  intro one two queries slots
  have hnew : Index.new .host 1 .innerProduct =
      .ok { store := { memory := .host, codec := .flat 1, metric := .innerProduct } } := rfl
  refine ⟨_, hnew, ?_⟩
  intro ix
  have hr : ix.Reachable := (Reachable.new hnew).run _
  have hm : ix.metric = .l2 ∨ ix.metric = .innerProduct := Or.inr (by decide +kernel)
  have hphysical : ix.store.physical = 3 := by decide +kernel
  have hdimension : ix.dimension = 1 := by decide +kernel
  have hinside : ∀ slot, some slot ∈ slots → slot < ix.store.physical := by
    rw [hphysical]
    simp [slots]
  have hs : ix.Scorable queries 2 slots :=
    ⟨hm, by decide, by rw [hdimension]; decide, by rw [hdimension]; decide,
      by rw [hdimension]; decide, hinside⟩
  obtain ⟨hslots, hunknown, hresolved⟩ := subset_scored_or_refused hr queries 2
  obtain ⟨hok, hscores, -⟩ := hslots slots
  obtain ⟨-, -, hfault, -⟩ := hslots [some 1, none, some 5, some 9]
  obtain ⟨scores, hanswer⟩ := hok.mpr hs
  obtain ⟨hlength, hmissing, hgiven⟩ := hscores scores hanswer
  obtain ⟨-, hunknown, -⟩ := subset_scored_or_refused hr [] 0
  rw [hdimension] at hlength hmissing hgiven
  obtain ⟨code, hcode, hscore⟩ := hgiven 0 0 1 (by decide) (by decide) rfl
  have hvalue : (ix.store.code 1).toOption = some [two] := by decide +kernel
  rw [hcode] at hvalue
  cases hvalue
  have hdot : ix.metric.distance (Rows.rowAt 1 0 queries) ([two].map Single.value) = two.value := by
    decide +kernel
  have hlabels : ∀ label, some label ∈ slots → ∃ slot, ix.store.slotOf? label = some slot := by
    have hall : ∀ label < 3, ix.store.slotOf? label = some label := by decide +kernel
    intro label hl
    exact ⟨label, hall label (hphysical ▸ hinside label hl)⟩
  refine ⟨⟨hr, by decide +kernel, hs⟩, ⟨scores, hanswer, hlength.trans (by decide), ?_, ?_⟩, ?_, ?_, ?_⟩
  · rw [hdot] at hscore
    exact hscore
  · have hworst : ix.metric.worst = Score.negInfinity := by decide +kernel
    have hnone := hmissing 0 1 (by decide) (by decide) rfl
    rw [hworst] at hnone
    exact hnone
  · rw [hfault, ← hphysical]
    refine .outside hm (by decide) (by rw [hdimension]; decide) (by rw [hdimension]; decide)
      (by rw [hdimension]; decide) [some 1, none] [some 9] 5 rfl (by omega) ?_
    rw [hphysical]
    simp
  · refine hunknown [none, some 1] 7 [] ?_ (by decide +kernel)
    intro other ho
    exact hlabels other (by simp at ho; simp [slots, ho])
  · have hsame : slots.map (·.bind ix.store.slotOf?) = slots := by decide +kernel
    obtain ⟨heq, -⟩ := hresolved slots hlabels
    rwa [hsame] at heq

end Index
end ExactNeighbors
