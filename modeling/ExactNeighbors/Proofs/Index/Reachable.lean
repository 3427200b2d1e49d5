import ExactNeighbors.Index.Basic
import ExactNeighbors.Proofs.Store.Room

/-! # Reachable indexes

An index starts empty and goes through insertions, deletions, resets and changes of its tombstone
policy. Its store stays coherent, within the memory that it was granted, and keeps components as they
are.
-/
namespace ExactNeighbors.Index

inductive Reachable : Index → Prop where
  | new {memory : Memory} {dimension : Nat} {metric : Metric} {ix : Index}
      (h : Index.new memory dimension metric = .ok ix) : Reachable ix
  | ofSettings {memory : Memory} {settings : Settings} {ix : Index}
      (h : Index.ofSettings memory settings = .ok ix) : Reachable ix
  | add {ix jx : Index} {x : List Single} {labels : List Nat} (hr : Reachable ix)
      (h : ix.add x = .ok (labels, jx)) : Reachable jx
  | markDeleted {ix jx : Index} {labels : List Nat} {pending : Nat} (hr : Reachable ix)
      (h : ix.markDeleted labels = .ok (pending, jx)) : Reachable jx
  | reset {ix : Index} (hr : Reachable ix) : Reachable ix.reset
  | excludeTombstones {ix : Index} (exclude : Bool) (hr : Reachable ix) :
      Reachable { ix with excludesTombstones := exclude }

variable {ix jx : Index}

structure Coherent (ix : Index) : Prop where
  store : ix.store.Coherent
  fits : ix.store.Fits
  codec_eq : ix.store.codec = Codec.flat ix.dimension

section New

variable {memory : Memory} {dimension : Nat} {metric : Metric}

theorem exists_store_of_new (h : Index.new memory dimension metric = .ok ix) :
    ∃ s, Store.new memory (Codec.flat dimension) metric = .ok s ∧ ix = { store := s } := by
  cases hs : Store.new memory (Codec.flat dimension) metric with
  | error e =>
    rw [Index.new, hs] at h
    cases h
  | ok s =>
    rw [Index.new, hs] at h
    cases h
    exact ⟨s, rfl, rfl⟩

theorem coherent_of_new (h : Index.new memory dimension metric = .ok ix) : ix.Coherent := by
  obtain ⟨s, hs, rfl⟩ := exists_store_of_new h
  have hcoherent := Store.coherent_of_new hs
  have hfits := Store.fits_of_new hs
  obtain ⟨rfl, -, -⟩ := Store.eq_of_new hs
  exact ⟨hcoherent, hfits, rfl⟩

theorem new_of_ofSettings {settings : Settings} (h : Index.ofSettings memory settings = .ok ix) :
    ∃ jx, Index.new memory settings.dimension settings.metric = .ok jx ∧ ix.store = jx.store := by
  unfold Index.ofSettings at h
  split at h
  · cases h
  · cases hnew : Index.new memory settings.dimension settings.metric with
    | error e =>
      rw [hnew] at h
      cases h
    | ok jx =>
      refine ⟨jx, rfl, ?_⟩
      rw [hnew] at h
      dsimp only [bind, Except.bind] at h
      split at h
      · split at h
        · cases h
        · cases h
          rfl
      · cases h
        rfl

end New

theorem exists_store_of_add {x : List Single} {labels : List Nat}
    (h : ix.add x = .ok (labels, jx)) :
    ∃ t, ix.store.add x = .ok (labels, t) ∧ jx = { ix with store := t } := by
  cases hs : ix.store.add x with
  | error e =>
    rw [Index.add, hs] at h
    cases h
  | ok answer =>
    rw [Index.add, hs] at h
    cases h
    exact ⟨answer.2, rfl, rfl⟩

theorem exists_store_of_markDeleted {labels : List Nat} {pending : Nat}
    (h : ix.markDeleted labels = .ok (pending, jx)) :
    ∃ t, ix.store.markDeleted labels = .ok (pending, t) ∧ jx = { ix with store := t } := by
  cases hs : ix.store.markDeleted labels with
  | error e =>
    rw [Index.markDeleted, hs] at h
    cases h
  | ok answer =>
    rw [Index.markDeleted, hs] at h
    cases h
    exact ⟨answer.2, rfl, rfl⟩

theorem markDeleted_eq_ok (h : ix.store.Coherent) {labels : List Nat}
    (hd : ix.store.Deletable labels) :
    ∃ jx, ix.markDeleted labels = .ok (ix.store.pending + labels.length, jx) := by
  obtain ⟨t, ht, -⟩ := Store.markDeleted_eq_ok h hd
  exact ⟨{ ix with store := t }, by rw [Index.markDeleted, ht]; rfl⟩

theorem store_of_add {x : List Single} {labels : List Nat} (h : ix.add x = .ok (labels, jx)) :
    jx.store = ix.store.after (.add x) := by
  obtain ⟨t, hs, rfl⟩ := exists_store_of_add h
  rw [Store.after, hs]

theorem store_of_markDeleted {labels : List Nat} {pending : Nat}
    (h : ix.markDeleted labels = .ok (pending, jx)) :
    jx.store = ix.store.after (.delete labels) := by
  obtain ⟨t, hs, rfl⟩ := exists_store_of_markDeleted h
  rw [Store.after, hs]

theorem Coherent.of_store_eq (h : ix.Coherent) (hs : jx.store = ix.store) : jx.Coherent := by
  have hcodec := h.codec_eq
  rw [dimension, ← hs] at hcodec
  exact ⟨hs ▸ h.store, hs ▸ h.fits, hcodec⟩

theorem Coherent.after (h : ix.Coherent) {call : Store.Call} (hs : jx.store = ix.store.after call) :
    jx.Coherent := by
  obtain ⟨hstore, hcodec⟩ := h.store.after call
  have hfits := h.fits.after h.store call
  rw [← hs] at hstore hfits hcodec
  refine ⟨hstore, hfits, ?_⟩
  rw [dimension, Store.dimension, hcodec, h.codec_eq]
  rfl

theorem Reachable.coherent (h : ix.Reachable) : ix.Coherent := by
  induction h with
  | new h => exact coherent_of_new h
  | ofSettings h =>
    obtain ⟨jx, hnew, hs⟩ := new_of_ofSettings h
    exact (coherent_of_new hnew).of_store_eq hs
  | add _ h ih => exact ih.after (store_of_add h)
  | markDeleted _ h ih => exact ih.after (store_of_markDeleted h)
  | @reset ix _ ih =>
    have hs : ix.reset.store = ix.store.after .reset := rfl
    exact ih.after hs
  | excludeTombstones exclude _ ih => exact ih.of_store_eq rfl

def run (ix : Index) (calls : List Store.Call) : Index := { ix with store := ix.store.run calls }

theorem Reachable.run (h : ix.Reachable) (calls : List Store.Call) : (ix.run calls).Reachable := by
  induction calls generalizing ix with
  | nil => exact h
  | cons call calls ih =>
    suffices hcall : Reachable { ix with store := ix.store.after call } from ih hcall
    cases call with
    | add x =>
      cases hs : ix.store.add x with
      | error e =>
        rw [Store.after, hs]
        exact h
      | ok answer =>
        rw [Store.after, hs]
        exact h.add (by rw [Index.add, hs]; rfl)
    | delete labels =>
      cases hs : ix.store.markDeleted labels with
      | error e =>
        rw [Store.after, hs]
        exact h
      | ok answer =>
        rw [Store.after, hs]
        exact h.markDeleted (by rw [Index.markDeleted, hs]; rfl)
    | reserve additional => exact h
    | reset => exact h.reset

end ExactNeighbors.Index
