import ExactNeighbors.Proofs.Store.Delete
import ExactNeighbors.Proofs.Store.Insert

/-! # Runs of calls

A run is any finite sequence of insertions, deletions, reservations and resets on a store. A call
that fails leaves the store as it was. Every store that a run reaches is coherent.
-/
namespace ExactNeighbors.Store

inductive Call where
  | add (x : List Single)
  | delete (labels : List Nat)
  | reserve (additional : Nat)
  | reset
deriving DecidableEq

variable {α : Type} {s t : Store α}

def after (s : Store α) : Call → Store α
  | .add x => match s.add x with
    | .ok (_, t) => t
    | .error _ => s
  | .delete labels => match s.markDeleted labels with
    | .ok (_, t) => t
    | .error _ => s
  | .reserve _ => s
  | .reset => s.reset

def run (s : Store α) (calls : List Call) : Store α := calls.foldl after s

@[simp] theorem run_nil (s : Store α) : s.run [] = s := rfl

@[simp] theorem run_cons (s : Store α) (call : Call) (calls : List Call) :
    s.run (call :: calls) = (s.after call).run calls := rfl

theorem run_append (s : Store α) (first second : List Call) :
    s.run (first ++ second) = (s.run first).run second := List.foldl_append

/-- The labels that a call hands out. -/
def issuedBy (s : Store α) : Call → List Nat
  | .add x => match s.add x with
    | .ok (labels, _) => labels
    | .error _ => []
  | _ => []

def deletedBy (s : Store α) : Call → List Nat
  | .delete labels => match s.markDeleted labels with
    | .ok _ => labels
    | .error _ => []
  | _ => []

/-- What one call can do: place rows, make the slots of labels dead, reset, or nothing. -/
inductive Effect (s : Store α) (call : Call) : Prop where
  | placed (x : List Single) (labels : List Nat) (t : Store α) (call_eq : call = .add x)
      (answer : s.add x = .ok (labels, t)) (after_eq : s.after call = t)
      (issued_eq : s.issuedBy call = labels) (deleted_eq : s.deletedBy call = [])
      (labels_eq : labels = List.range' s.nextLabel (x.length / s.dimension))
      (rows : PlacedAll s (Rows.split s.dimension x) t)
  | buried (labels : List Nat) (pending : Nat) (t : Store α) (call_eq : call = .delete labels)
      (answer : s.markDeleted labels = .ok (pending, t)) (after_eq : s.after call = t)
      (issued_eq : s.issuedBy call = []) (deleted_eq : s.deletedBy call = labels)
      (deletable : s.Deletable labels) (coherent : Coherent t) (slots : Buried s labels t)
  | reset (call_eq : call = .reset) (after_eq : s.after call = s.reset)
  | idle (after_eq : s.after call = s) (issued_eq : s.issuedBy call = [])
      (deleted_eq : s.deletedBy call = [])

theorem Coherent.effect (h : Coherent s) (call : Call) : Effect s call := by
  cases call with
  | add x =>
    cases hadd : s.add x with
    | error e => exact .idle (by rw [Store.after, hadd]) (by rw [issuedBy, hadd]) rfl
    | ok answer =>
      obtain ⟨hlabels, hp⟩ := placedAll_of_add h hadd
      exact .placed x answer.1 answer.2 rfl hadd (by rw [Store.after, hadd])
        (by rw [issuedBy, hadd]) rfl hlabels hp
  | delete labels =>
    cases hmark : s.markDeleted labels with
    | error e => exact .idle (by rw [Store.after, hmark]) rfl (by rw [deletedBy, hmark])
    | ok answer =>
      obtain ⟨hd, hc, hb⟩ := buried_of_markDeleted h hmark
      exact .buried labels answer.1 answer.2 rfl hmark (by rw [Store.after, hmark]) rfl
        (by rw [deletedBy, hmark]) hd hc hb
  | reserve additional => exact .idle rfl rfl rfl
  | reset => exact .reset rfl rfl

theorem Coherent.after (h : Coherent s) (call : Call) :
    Coherent (s.after call) ∧ (s.after call).codec = s.codec := by
  cases h.effect call with
  | placed x labels t _ _ ht _ _ _ hp => exact ht ▸ ⟨hp.coherent h, hp.codec_eq⟩
  | buried labels pending t _ _ ht _ _ _ hc hb => exact ht ▸ ⟨hc, hb.codec_eq⟩
  | reset _ ht => exact ht ▸ ⟨h.reset, rfl⟩
  | idle ht => exact ht.symm ▸ ⟨h, rfl⟩

theorem Coherent.run (h : Coherent s) (calls : List Call) :
    Coherent (s.run calls) ∧ (s.run calls).codec = s.codec := by
  induction calls generalizing s with
  | nil => exact ⟨h, rfl⟩
  | cons call calls ih =>
    obtain ⟨hc, hcodec⟩ := h.after call
    obtain ⟨hrun, hcodec'⟩ := ih hc
    exact ⟨hrun, hcodec'.trans hcodec⟩

theorem Coherent.memory_run (h : Coherent s) (calls : List Call) :
    (s.run calls).memory = s.memory := by
  induction calls generalizing s with
  | nil => rfl
  | cons call calls ih =>
    refine (ih (h.after call).1).trans ?_
    cases h.effect call with
    | placed x labels t _ _ ht _ _ _ hp => exact ht ▸ hp.memory_eq
    | buried labels pending t _ _ ht _ _ _ _ hb => exact ht ▸ hb.memory_eq
    | reset _ ht => exact ht ▸ rfl
    | idle ht => exact congrArg Store.memory ht

theorem Coherent.metric_run (h : Coherent s) (calls : List Call) :
    (s.run calls).metric = s.metric := by
  induction calls generalizing s with
  | nil => rfl
  | cons call calls ih =>
    refine (ih (h.after call).1).trans ?_
    cases h.effect call with
    | placed x labels t _ _ ht _ _ _ hp => exact ht ▸ hp.metric_eq
    | buried labels pending t _ _ ht _ _ _ _ hb => exact ht ▸ hb.metric_eq
    | reset _ ht => exact ht ▸ rfl
    | idle ht => exact congrArg Store.metric ht

/-- After any run of calls the code buffer and the tombstones fit the slots, the free slots are the
dead ones and as many as every counter says, the two label maps are inverse to each other over all
slots, and labels stay below the next one. -/
theorem run_bookkeeping (memory : Memory) (codec : Codec α) (metric : Metric)
    (hd : 1 ≤ codec.dimension) (hc : 1 ≤ codec.codeLength) :
    ∃ s₀, Store.new memory codec metric = .ok s₀ ∧ ∀ calls : List Call,
      let s := s₀.run calls
      (s.codes.length = s.physical * codec.codeLength ∧ s.tombstones.length = s.physical ∧
        s.tombstones.words.length = (s.physical + 63) / 64) ∧
      (s.free.members = (List.range s.physical).filter s.isDeleted ∧ s.free.size = s.pending ∧
        s.tombstones.countOnes = s.pending ∧ s.pending ≤ s.physical ∧
        s.live + s.pending = s.physical) ∧
      (∀ label slot, s.slotOf? label = some slot ↔ s.labelOf? slot = some label) ∧
      (∀ slot label, s.labelOf? slot = some label → label < s.nextLabel) ∧
      s.physical ≤ s.nextLabel := by
  refine ⟨_, new_eq memory metric hd hc, fun calls => ?_⟩
  have h₀ : Coherent ({ memory, codec, metric } : Store α) := coherent_of_empty hd hc
  obtain ⟨h, hcodec⟩ := h₀.run calls
  have hwords := h.tombstones_sound.words_length
  have hcodes := h.codes_length
  have hle := h.pending_le
  rw [h.tombstones_length] at hwords
  rw [hcodec] at hcodes
  exact ⟨⟨hcodes, h.tombstones_length, hwords⟩,
    ⟨h.free_eq, h.pending_eq.symm, h.countOnes_eq, hle, Nat.sub_add_cancel hle⟩,
    h.slotOf?_iff, h.label_lt, h.physical_le⟩

/-- The run deletes two slots, is refused a second deletion of one of them, and reuses the other. -/
theorem run_bookkeeping_recycled :
    (1 ≤ (Codec.flat 1).dimension ∧ 1 ≤ (Codec.flat 1).codeLength) ∧
    ∃ s₀, Store.new .host (Codec.flat 1) .l2 = .ok s₀ ∧
      let s := s₀.run [.add [⟨1⟩, ⟨2⟩, ⟨3⟩], .delete [0, 2], .delete [2], .add [⟨4⟩]]
      s.free.members = [2] ∧ s.tombstones.countOnes = s.pending ∧
        (s.slotOf? 3 = some 0 ↔ s.labelOf? 0 = some 3) ∧ s.live + s.pending = 3 := by
  obtain ⟨s₀, hnew, hrun⟩ :=
    run_bookkeeping .host (Codec.flat 1) .l2 (by decide) (by decide)
  obtain ⟨-, ⟨-, -, hones, -, hlive⟩, hlabels, -⟩ :=
    hrun [.add [⟨1⟩, ⟨2⟩, ⟨3⟩], .delete [0, 2], .delete [2], .add [⟨4⟩]]
  refine ⟨⟨by decide, by decide⟩, s₀, hnew, ?_⟩
  cases hnew
  exact ⟨by decide, hones, hlabels 3 0, hlive⟩

end ExactNeighbors.Store
