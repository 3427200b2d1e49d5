import ExactNeighbors.Proofs.Index.Hits
import ExactNeighbors.Proofs.Store.Contents

/-! # What bystanders change under the inner product

Other candidates move a vector from a lane to a single score and back. Its score stays the same
number, and stays the same zero too unless the inner product adds nothing but `-0.0`. The order of
two hits is stable up to that sign.
-/
namespace ExactNeighbors

namespace Score

theorem key_zero : key zero = 0 := by decide

theorem key_negZero : key negZero = -1 := by decide

theorem key_iff_zero {x : Score} : key x = 0 ∨ key x = -1 ↔ x = zero ∨ x = negZero := by
  rw [← key_zero, ← key_negZero]
  exact ⟨Or.imp eq_of_key_eq eq_of_key_eq, Or.imp (congrArg key) (congrArg key)⟩

theorem beq_of_zero {x y : Score} (hx : x = zero ∨ x = negZero) (hy : y = zero ∨ y = negZero) :
    (x == y) = true := by
  rcases hx with rfl | rfl <;> rcases hy with rfl | rfl <;> decide +kernel

end Score

namespace Index

variable {ix jx : Index} {sel sel' : Option Selector} {q : List Score} {slot : Nat}
variable {found found' : List Hit} {x x' y y' : Hit}

structure Continues (ix jx : Index) : Prop where
  metric_eq : jx.metric = ix.metric
  slot_eq : ∀ label slot place, ix.store.slotOf? label = some slot →
    jx.store.slotOf? label = some place → place = slot
  vectorAt_eq : ∀ label slot, ix.store.slotOf? label = some slot →
    jx.store.slotOf? label = some slot → jx.store.vectorAt slot = ix.store.vectorAt slot

theorem continues_of_run (h : ix.Coherent) {calls : List Store.Call} (hr : .reset ∉ calls)
    (hj : jx.store = ix.store.run calls) : Continues ix jx where
  metric_eq := by
    rw [metric, hj, h.store.metric_run]
    rfl
  slot_eq label slot place hs ht := Store.slotOf?_run h.store hr hs (hj ▸ ht)
  vectorAt_eq label slot hs ht := by
    rw [hj] at ht ⊢
    exact congrArg (List.map Single.value) (Store.codeOf_run h.store hr hs ht)

theorem scoreOf_of_vanishing (hm : ix.metric = .innerProduct)
    (hv : Distance.Vanishing q (ix.store.vectorAt slot)) :
    ix.scoreOf sel q slot = if ix.InLane sel slot then Score.zero else Score.negZero := by
  rw [scoreOf, hm]
  split
  · exact Metric.laneDistance_of_vanishing hv
  · exact Distance.innerProduct_of_vanishing hv

theorem zero_of_vanishing (hm : ix.metric = .innerProduct)
    (hv : Distance.Vanishing q (ix.store.vectorAt slot)) :
    ix.scoreOf sel q slot = .zero ∨ ix.scoreOf sel q slot = .negZero := by
  rw [scoreOf_of_vanishing hm hv]
  split
  · exact Or.inl rfl
  · exact Or.inr rfl

theorem scoreOf_of_not_vanishing (h : ix.Coherent) (hq : q.length = ix.dimension)
    (hslot : slot < ix.store.physical) (hv : ¬Distance.Vanishing q (ix.store.vectorAt slot)) :
    ix.scoreOf sel q slot = ix.metric.distance q (ix.store.vectorAt slot) :=
  (scoreOf_eq_distance h hq hslot).mpr fun hall => hv hall.2.2

structure FoundTwice (ix : Index) (sel : Option Selector) (jx : Index) (sel' : Option Selector)
    (q : List Score) (x x' : Hit) (slot : Nat) : Prop where
  before : Reports ix sel q x slot
  after : Reports jx sel' q x' slot
  vectorAt_eq : jx.store.vectorAt slot = ix.store.vectorAt slot

theorem Continues.exists_foundTwice (c : Continues ix jx) (h : ix.Coherent) (h' : jx.Coherent)
    (hr : ix.Returns sel q found) (hr' : jx.Returns sel' q found') (hx : x ∈ found)
    (hx' : x' ∈ found') (hl : x'.label = x.label) :
    ∃ slot, FoundTwice ix sel jx sel' q x x' slot := by
  obtain ⟨slot, hi⟩ := hr.exists_reports h hx
  obtain ⟨place, hj⟩ := hr'.exists_reports h' hx'
  have hs := hi.slotOf?_eq h
  have ht := hj.slotOf?_eq h'
  rw [hl] at ht
  cases c.slot_eq x.label slot place hs ht
  exact ⟨slot, hi, hj, c.vectorAt_eq x.label slot hs ht⟩

namespace FoundTwice

variable (f : FoundTwice ix sel jx sel' q x x' slot) (h : ix.Coherent) (h' : jx.Coherent)
variable (hm : ix.metric = .innerProduct) (hm' : jx.metric = .innerProduct)
variable (hq : q.length = ix.dimension) (hq' : q.length = jx.dimension)
include f h h' hm hm' hq hq'

/-- Where every product is `-0.0`, the sign of the zero shows where the vector was scored. -/
theorem distance_eq_iff : x.distance = x'.distance ↔
    (Distance.Vanishing q (ix.store.vectorAt slot) →
      (ix.InLane sel slot ↔ jx.InLane sel' slot)) := by
  rw [f.before.distance_eq, f.after.distance_eq]
  by_cases hv : Distance.Vanishing q (ix.store.vectorAt slot)
  · have hne := Score.zero_ne_negZero
    rw [scoreOf_of_vanishing hm hv, scoreOf_of_vanishing hm' (f.vectorAt_eq ▸ hv)]
    by_cases hi : ix.InLane sel slot <;> by_cases hj : jx.InLane sel' slot <;>
      simp [hi, hj, hv, hne, hne.symm]
  · have hsame : ix.scoreOf sel q slot = jx.scoreOf sel' q slot := by
      rw [scoreOf_of_not_vanishing h hq f.before.lt_physical hv,
        scoreOf_of_not_vanishing h' hq' f.after.lt_physical (f.vectorAt_eq ▸ hv), f.vectorAt_eq, hm,
        hm']
    simp [hsame, hv]

theorem zero_of_ne (hne : x.distance ≠ x'.distance) :
    (x.distance = .zero ∨ x.distance = .negZero) ∧
      (x'.distance = .zero ∨ x'.distance = .negZero) := by
  have hv : Distance.Vanishing q (ix.store.vectorAt slot) := by
    by_contra hv
    exact hne ((f.distance_eq_iff h h' hm hm' hq hq').mpr fun hall => absurd hall hv)
  rw [f.before.distance_eq, f.after.distance_eq]
  exact ⟨zero_of_vanishing hm hv, zero_of_vanishing hm' (f.vectorAt_eq ▸ hv)⟩

theorem distance_beq : (x.distance == x'.distance) = true := by
  by_cases hsame : x.distance = x'.distance
  · rw [← hsame]
    exact Score.beq_self f.before.isNaN_eq
  · obtain ⟨hzero, hzero'⟩ := f.zero_of_ne h h' hm hm' hq hq' hsame
    exact Score.beq_of_zero hzero hzero'

end FoundTwice

/-- Two zeros are next to each other in the total order, so that a score beside them does not see
which of them it is compared with. -/
theorem inOrder_zero {m : Metric} {d e e' : Score} (i j : Nat) (hd : ¬(d = .zero ∨ d = .negZero))
    (he : e = .zero ∨ e = .negZero) (he' : e' = .zero ∨ e' = .negZero) :
    inOrder m (d, i) (e, j) = inOrder m (d, i) (e', j) ∧
      inOrder m (e, j) (d, i) = inOrder m (e', j) (d, i) := by
  rw [← Score.key_iff_zero] at hd he he'
  constructor
  · apply Bool.eq_iff_iff.mpr
    rw [inOrder_iff, inOrder_iff]
    split <;> dsimp only <;> omega
  · apply Bool.eq_iff_iff.mpr
    rw [inOrder_iff, inOrder_iff]
    split <;> dsimp only <;> omega

/-- Scores that change from zero to zero at most keep the order of slots whose scores differ as
numbers. -/
theorem inOrder_kept {m : Metric} {d d' e e' : Score} (i j : Nat)
    (hd : d ≠ d' → (d = .zero ∨ d = .negZero) ∧ (d' = .zero ∨ d' = .negZero))
    (he : e ≠ e' → (e = .zero ∨ e = .negZero) ∧ (e' = .zero ∨ e' = .negZero))
    (hne : (d == e) = false) : inOrder m (d, i) (e, j) = inOrder m (d', i) (e', j) := by
  -- two zeros would be equal as numbers, so at most one of the scores can change
  have hboth : ¬((d = .zero ∨ d = .negZero) ∧ (e = .zero ∨ e = .negZero)) := by
    rintro ⟨hd, he⟩
    rw [Score.beq_of_zero hd he] at hne
    cases hne
  by_cases hdd : d = d'
  · by_cases hee : e = e'
    · rw [hdd, hee]
    · obtain ⟨hz, hz'⟩ := he hee
      rw [← hdd]
      exact (inOrder_zero i j (fun hd => hboth ⟨hd, hz⟩) hz hz').1
  · obtain ⟨hz, hz'⟩ := hd hdd
    have hother : ¬(e = .zero ∨ e = .negZero) := fun he => hboth ⟨hz, he⟩
    have hee : e = e' := by
      by_contra hee
      exact hother (he hee).1
    rw [← hee]
    exact (inOrder_zero j i hother hz hz').2

/-- Under the inner product, whatever is inserted or deleted beside them and whatever the selectors
and the tombstone policies are, two labels that are found before and after keep their scores as
numbers. The bits of a score change where every product is `-0.0` and the vector moves between a
lane and a single score. The order of the labels changes only together with bits, and only where the
scores are equal as numbers. -/
theorem returns_beside (h : ix.Reachable) (hm : ix.metric = .innerProduct)
    {calls : List Store.Call} (hreset : .reset ∉ calls) (hj : jx.store = ix.store.run calls)
    (hr : ix.Returns sel q found) (hr' : jx.Returns sel' q found') :
    (∀ x ∈ found, ∀ x' ∈ found', x'.label = x.label → ∃ slot,
      ix.store.slotOf? x.label = some slot ∧ jx.store.slotOf? x.label = some slot ∧
      (x.distance == x'.distance) = true ∧
      (x.distance = x'.distance ↔ (Distance.Vanishing q (ix.store.vectorAt slot) →
        (ix.InLane sel slot ↔ jx.InLane sel' slot)))) ∧
    (∀ x ∈ found, ∀ x' ∈ found', ∀ y ∈ found, ∀ y' ∈ found',
      x'.label = x.label → y'.label = y.label → x.label ≠ y.label →
      (x.distance = x'.distance ∧ y.distance = y'.distance) ∨
        (x.distance == y.distance) = false →
      (Precedes found x.label y.label ↔ Precedes found' x.label y.label)) := by
  have hc := continues_of_run h.coherent hreset hj
  have h' : jx.Coherent := (h.run calls).coherent.of_store_eq hj
  have hm' : jx.metric = .innerProduct := hc.metric_eq.trans hm
  obtain ⟨hq, -⟩ := hr.eq_hits h.coherent
  obtain ⟨hq', -⟩ := hr'.eq_hits h'
  constructor
  · intro x hx x' hx' hl
    obtain ⟨slot, f⟩ := hc.exists_foundTwice h.coherent h' hr hr' hx hx' hl
    exact ⟨slot, f.before.slotOf?_eq h.coherent, hl ▸ f.after.slotOf?_eq h',
      f.distance_beq h.coherent h' hm hm' hq hq',
      f.distance_eq_iff h.coherent h' hm hm' hq hq'⟩
  · intro x hx x' hx' y hy y' hy' hl hl' hne hkept
    obtain ⟨i, f⟩ := hc.exists_foundTwice h.coherent h' hr hr' hx hx' hl
    obtain ⟨j, g⟩ := hc.exists_foundTwice h.coherent h' hr hr' hy hy' hl'
    have hbefore := hr.precedes_iff h.coherent hx hy f.before g.before hne
    have hafter := hr'.precedes_iff h' hx' hy' f.after g.after (by rwa [hl, hl'])
    rw [hl, hl', hm'] at hafter
    rw [hbefore, hafter, hm]
    rcases hkept with ⟨hd, he⟩ | hne
    · rw [hd, he]
    · rw [inOrder_kept i j (f.zero_of_ne h.coherent h' hm hm' hq hq')
        (g.zero_of_ne h.coherent h' hm hm' hq hq') hne]

/-- Two zeros behind the last whole block change places when two more vectors complete it. -/
theorem order_of_zeros_changes :
    let one : Single := ⟨0x3f800000⟩
    let two : Single := ⟨0x40000000⟩
    let zero : Single := ⟨0x00000000⟩
    let minusZero : Single := ⟨0x80000000⟩
    let q := [one.value]
    ∃ ix₀, Index.new .host 1 .innerProduct = .ok ix₀ ∧
      let ix := ix₀.run [.add [minusZero, zero]]
      let jx := ix.run [.add [one, two]]
      let found : List Hit := [⟨1, Score.zero⟩, ⟨0, Score.negZero⟩]
      let found' : List Hit := [⟨3, two.value⟩, ⟨2, one.value⟩, ⟨0, Score.zero⟩, ⟨1, Score.zero⟩]
      ix.Reachable ∧ ix.search q 4 none = .ok [found] ∧ jx.search q 4 none = .ok [found'] ∧
        Score.negZero ≠ Score.zero ∧ Precedes found 1 0 ∧ ¬Precedes found' 1 0 := by
  intro one two zero minusZero q
  have hnew : Index.new .host 1 .innerProduct =
      .ok { store := { memory := .host, codec := .flat 1, metric := .innerProduct } } := rfl
  refine ⟨_, hnew, ?_⟩
  intro ix jx found found'
  have hr : ix.Reachable := (Reachable.new hnew).run _
  exact ⟨hr, eq_ok_of_toOption (by decide +kernel), eq_ok_of_toOption (by decide +kernel),
    Score.zero_ne_negZero.symm, by decide +kernel, by decide +kernel⟩

/-- The first vector goes from a single score to a lane and its zero changes sign, the other two
keep their bits and their order. -/
theorem returns_beside_recycled :
    let one : Single := ⟨0x3f800000⟩
    let two : Single := ⟨0x40000000⟩
    let minusZero : Single := ⟨0x80000000⟩
    let q := [one.value]
    let sel : Option Selector := some (.complement (.range 3 4))
    ∃ ix₀, Index.new .host 1 .innerProduct = .ok ix₀ ∧
      let ix := ix₀.run [.add [minusZero, one, two]]
      let calls : List Store.Call := [.add [two, two], .delete [3], .add [one]]
      let jx := ix.run calls
      let found : List Hit := [⟨2, two.value⟩, ⟨1, one.value⟩, ⟨0, Score.negZero⟩]
      let found' : List Hit :=
        [⟨2, two.value⟩, ⟨4, two.value⟩, ⟨1, one.value⟩, ⟨5, one.value⟩, ⟨0, Score.zero⟩]
      (ix.Reachable ∧ ix.metric = .innerProduct ∧ .reset ∉ calls ∧
        jx.store = ix.store.run calls ∧ ix.Returns none q found ∧ jx.Returns sel q found') ∧
      (Score.negZero == Score.zero) = true ∧
      (Precedes found 2 1 ↔ Precedes found' 2 1) ∧ (Precedes found 1 0 ↔ Precedes found' 1 0) := by
  intro one two minusZero q sel
  have hnew : Index.new .host 1 .innerProduct =
      .ok { store := { memory := .host, codec := .flat 1, metric := .innerProduct } } := rfl
  refine ⟨_, hnew, ?_⟩
  intro ix calls jx found found'
  have hr : ix.Reachable := (Reachable.new hnew).run _
  have hm : ix.metric = .innerProduct := by decide +kernel
  have hreset : .reset ∉ calls := by decide
  have hsearch : ix.search q 5 none = .ok [found] := eq_ok_of_toOption (by decide +kernel)
  have hsearch' : jx.search q 5 sel = .ok [found'] := eq_ok_of_toOption (by decide +kernel)
  have hrow : (Rows.split ix.dimension q)[0]? = some q := by decide +kernel
  have hrow' : (Rows.split jx.dimension q)[0]? = some q := by decide +kernel
  have hfound := Returns.nearest hsearch hrow rfl
  have hfound' := Returns.nearest hsearch' hrow' rfl
  obtain ⟨hscores, horder⟩ := returns_beside hr hm hreset rfl hfound hfound'
  obtain ⟨-, -, -, hzeros, -⟩ := hscores ⟨0, Score.negZero⟩ (by simp [found]) ⟨0, Score.zero⟩
    (by simp [found']) rfl
  have htwoOne := horder ⟨2, two.value⟩ (by simp [found]) ⟨2, two.value⟩ (by simp [found'])
    ⟨1, one.value⟩ (by simp [found]) ⟨1, one.value⟩ (by simp [found']) rfl rfl (by decide)
    (Or.inl ⟨rfl, rfl⟩)
  have honeZero := horder ⟨1, one.value⟩ (by simp [found]) ⟨1, one.value⟩ (by simp [found'])
    ⟨0, Score.negZero⟩ (by simp [found]) ⟨0, Score.zero⟩ (by simp [found']) rfl rfl (by decide)
    (Or.inr (by decide +kernel))
  exact ⟨⟨hr, hm, hreset, rfl, hfound, hfound'⟩, hzeros, htwoOne, honeZero⟩

end Index
end ExactNeighbors
