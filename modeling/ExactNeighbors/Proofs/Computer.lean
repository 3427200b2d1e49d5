import ExactNeighbors.Computer
import ExactNeighbors.Proofs.Store.Read

/-! # Running a computer

Once a query is bound, scoring a slot that the store has never fails. It leaves the adapter and the
query alone and counts one evaluation for each slot.
-/
namespace ExactNeighbors

namespace Metric

/-- The scores of four vectors at once. The primary metrics have four lanes of their own. -/
def distanceFour (m : Metric) (q : List Score) (ys : Four (List Score)) : Four Score :=
  match m with
  | .l2 => Distance.l2SqrFour q ys
  | .innerProduct => Distance.innerProductFour q ys
  | m => ys.map (m.distance q)

end Metric

namespace Adapter

def scoreFour (a : Adapter) (q : List Score) (ys : Four (List Score)) : Four Score :=
  match a.kernelFour? with
  | some kernel => kernel q ys
  | none => ys.map (a.kernel q)

theorem kernel_ofMetric (m : Metric) : (ofMetric m).kernel = m.distance := by
  cases m <;> rfl

theorem scoreFour_ofMetric (m : Metric) : (ofMetric m).scoreFour = m.distanceFour := by
  cases m <;> rfl

end Adapter

namespace Store

variable {s : Store Single} {slot : Nat}

def vectorAt (s : Store Single) (slot : Nat) : List Score := (s.codeOf slot).map Single.value

theorem Coherent.values_eq (h : Coherent s) (hs : slot < s.physical) :
    s.values slot = .ok (s.vectorAt slot) := by
  rw [values, h.code_eq hs]
  rfl

theorem values_eq_error (hs : s.physical ≤ slot) :
    s.values slot = .error (.outOfBounds slot 1 s.physical) := by
  rw [values, code, codesRange_eq_error Nat.one_ne_zero (Nat.lt_succ_of_le hs)]
  rfl

theorem Coherent.length_vectorAt (h : Coherent s) (hs : slot < s.physical) :
    (s.vectorAt slot).length = s.codec.codeLength := by
  rw [vectorAt, List.length_map, h.length_codeOf hs]

end Store

namespace Computer

variable {α β : Type} {c c' : Computer} {s : Store Single} {a : Adapter} {q : List Score}
variable {e : IndexError}

structure Bound (c : Computer) (a : Adapter) (q : List Score) : Prop where
  adapter_eq : c.adapter = a
  query_eq : c.query? = some q

def counted (c : Computer) (n : Nat) : Computer := { c with evaluations := c.evaluations + n }

theorem Bound.counted (h : c.Bound a q) (n : Nat) : (c.counted n).Bound a q :=
  ⟨h.adapter_eq, h.query_eq⟩

theorem run_get (c : Computer) : c.run get = (.ok c, c) := rfl

theorem run_bind_ok {x : Scoring α} {f : α → Scoring β} {y : α} (h : c.run x = (.ok y, c')) :
    c.run (x >>= f) = c'.run (f y) := by
  dsimp only [run, ExceptT.run, StateT.run, bind, ExceptT.bind, ExceptT.mk, StateT.bind] at h ⊢
  rw [h]
  rfl

theorem run_bind_error {x : Scoring α} {f : α → Scoring β} {e : IndexError}
    (h : c.run x = (.error e, c')) : c.run (x >>= f) = (.error e, c') := by
  dsimp only [run, ExceptT.run, StateT.run, bind, ExceptT.bind, ExceptT.mk, StateT.bind] at h ⊢
  rw [h]
  rfl

/-- A step that never fails while a property of the computer holds, and keeps the property, never
fails in a loop. -/
theorem run_mapM {Keeps : Computer → Prop} {f : α → Scoring β} {g : α → β} (xs : List α)
    (hf : ∀ x ∈ xs, ∀ c, Keeps c → ∃ c', c.run (f x) = (.ok (g x), c') ∧ Keeps c') (hc : Keeps c) :
    ∃ c', c.run (xs.mapM f) = (.ok (xs.map g), c') ∧ Keeps c' := by
  induction xs generalizing c with
  | nil => exact ⟨c, rfl, hc⟩
  | cons x xs ih =>
    obtain ⟨c₁, hx, hc₁⟩ := hf x List.mem_cons_self c hc
    obtain ⟨c₂, hxs, hc₂⟩ := ih (fun y hy => hf y (List.mem_cons_of_mem x hy)) hc₁
    refine ⟨c₂, ?_, hc₂⟩
    rw [List.mapM_cons, run_bind_ok hx, run_bind_ok hxs]
    rfl

theorem run_setQuery (c : Computer) (h : q.length = s.dimension) :
    c.run (setQuery s q) = (.ok (), { c with query? := some q }) := by
  unfold setQuery
  rw [if_neg (not_not_intro h)]
  rfl

theorem run_setQuery_error (c : Computer) (h : q.length ≠ s.dimension) :
    c.run (setQuery s q) = (.error (.dimensionMismatch s.dimension q.length), c) := by
  unfold setQuery
  rw [if_pos h]
  rfl

theorem run_query (h : c.query? = some q) : c.run query = (.ok q, c) := by
  unfold query
  rw [run_bind_ok (run_get c), h]
  rfl

theorem run_query_unset (h : c.query? = none) : c.run query = (.error .queryNotSet, c) := by
  unfold query
  rw [run_bind_ok (run_get c), h]
  rfl

theorem run_distanceTo (h : c.Bound a q) {slot : Nat} {y : List Score}
    (hy : s.values slot = .ok y) :
    c.run (distanceTo s slot) = (.ok (a.kernel q y), c.counted 1) := by
  unfold distanceTo
  rw [run_bind_ok (run_query h.query_eq), hy, ← h.adapter_eq]
  rfl

theorem run_distanceTo_unset (h : c.query? = none) (slot : Nat) :
    c.run (distanceTo s slot) = (.error .queryNotSet, c) := run_bind_error (run_query_unset h)

theorem run_distanceTo_error (h : c.query? = some q) {slot : Nat} (hslot : s.values slot = .error e) :
    c.run (distanceTo s slot) = (.error e, c) := by
  unfold distanceTo
  rw [run_bind_ok (run_query h), hslot]
  rfl

theorem run_setQuery_distanceTo (h : s.Coherent) (hq : q.length = s.dimension) {slot : Nat}
    (hslot : slot < s.physical) (c : Computer) :
    (c.run do setQuery s q; distanceTo s slot).1 =
      .ok (c.adapter.kernel q (s.vectorAt slot)) := by
  rw [run_bind_ok (run_setQuery c hq), run_distanceTo ⟨rfl, rfl⟩ (h.values_eq hslot)]

theorem run_distanceToFour (h : c.Bound a q) (slots : Four Nat) (ys : Four (List Score))
    (h₁ : s.values slots.a = .ok ys.a) (h₂ : s.values slots.b = .ok ys.b)
    (h₃ : s.values slots.c = .ok ys.c) (h₄ : s.values slots.d = .ok ys.d) :
    c.run (distanceToFour s slots) = (.ok (a.scoreFour q ys), c.counted 4) := by
  unfold distanceToFour
  rw [run_bind_ok (run_get c), h.adapter_eq, Adapter.scoreFour]
  cases a.kernelFour? with
  | some kernel =>
    dsimp only
    rw [run_bind_ok (run_query h.query_eq), h₁, h₂, h₃, h₄]
    rfl
  | none =>
    have hc := h.counted 1
    dsimp only
    rw [run_bind_ok (run_distanceTo h h₁), run_bind_ok (run_distanceTo hc h₂),
      run_bind_ok (run_distanceTo (hc.counted 1) h₃),
      run_bind_ok (run_distanceTo ((hc.counted 1).counted 1) h₄)]
    rfl

end Computer
end ExactNeighbors
