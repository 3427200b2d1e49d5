import ExactNeighbors.Proofs.Index.Range
import ExactNeighbors.Proofs.Index.Subset
import ExactNeighbors.Proofs.Store.InRange

/-! # Searches, subsets and computers never overrun

The scan reads only slots that there are, the subset kernel only candidates that were checked, and a
computer only what reading a slot gives it. In every state that a run reaches, each operation gives
a result or refuses its arguments.
-/
namespace ExactNeighbors

namespace Scoring

variable {α β : Type} {x : Scoring α}

def Answered (x : Scoring α) : Prop := ∀ c : Computer, ExactNeighbors.Answered (c.run x).1

theorem answered_pure (y : α) : Scoring.Answered (pure y) := fun _ => answered_ok y

theorem answered_get : Scoring.Answered get := fun c => answered_ok c

theorem answered_modify (f : Computer → Computer) : Scoring.Answered (modify f) :=
  fun _ => answered_ok ()

theorem answered_throw {e : IndexError} (h : e.IsRefusal) : Scoring.Answered (throw e : Scoring α) :=
  fun _ => answered_error h

theorem answered_lift {answer : Except IndexError α} (h : ExactNeighbors.Answered answer) :
    Scoring.Answered (liftM answer : Scoring α) := by
  intro c
  cases answer with
  | ok y => exact answered_ok y
  | error e => exact answered_error (h e rfl)

theorem Answered.bind {f : α → Scoring β} (hx : Scoring.Answered x)
    (hf : ∀ y, Scoring.Answered (f y)) : Scoring.Answered (x >>= f) := by
  intro c
  have hc := hx c
  cases hrun : c.run x with
  | mk answer c' =>
    rw [hrun] at hc
    cases answer with
    | ok y =>
      rw [Computer.run_bind_ok hrun]
      exact hf y c'
    | error e =>
      rw [Computer.run_bind_error hrun]
      exact answered_error (hc e rfl)

end Scoring

namespace Computer

variable {s : Store Single}

theorem answered_setQuery (s : Store Single) (q : List Score) :
    Scoring.Answered (setQuery s q) := by
  unfold setQuery
  split
  · exact Scoring.answered_throw trivial
  · exact Scoring.answered_modify _

theorem answered_query : Scoring.Answered query := by
  refine Scoring.answered_get.bind fun c => ?_
  split
  · exact Scoring.answered_pure _
  · exact Scoring.answered_throw trivial

theorem answered_values (h : s.Coherent) (slot : Nat) : Answered (s.values slot) :=
  (Store.answered_codesRange h slot 1).map _

theorem answered_distanceTo (h : s.Coherent) (slot : Nat) :
    Scoring.Answered (distanceTo s slot) := by
  refine answered_query.bind fun q => ?_
  refine (Scoring.answered_lift (answered_values h slot)).bind fun y => ?_
  refine (Scoring.answered_modify _).bind fun _ => ?_
  exact Scoring.answered_get.bind fun c => Scoring.answered_pure _

theorem answered_distanceToFour (h : s.Coherent) (slots : Four Nat) :
    Scoring.Answered (distanceToFour s slots) := by
  have hvalues := fun slot => Scoring.answered_lift (answered_values h slot)
  have hone := answered_distanceTo h
  refine Scoring.answered_get.bind fun c => ?_
  split
  · refine answered_query.bind fun q => ?_
    refine (hvalues slots.a).bind fun y₁ => (hvalues slots.b).bind fun y₂ => ?_
    refine (hvalues slots.c).bind fun y₃ => (hvalues slots.d).bind fun y₄ => ?_
    exact (Scoring.answered_modify _).bind fun _ => Scoring.answered_pure _
  · refine (hone slots.a).bind fun x₁ => (hone slots.b).bind fun x₂ => ?_
    exact (hone slots.c).bind fun x₃ => (hone slots.d).bind fun x₄ => Scoring.answered_pure _

theorem answered_symmetric (h : s.Coherent) (adapter : Adapter) (i j : Nat) :
    Answered (symmetric s adapter i j) :=
  (answered_values h j).bind fun _ => (answered_values h i).bind fun _ => answered_ok _

end Computer

namespace Index

variable {ix : Index}

structure Responds (ix : Index) : Prop where
  search : ∀ queries k selector, Answered (ix.search queries k selector)
  rangeSearch : ∀ queries radius selector, Answered (ix.rangeSearch queries radius selector)
  scoreSlotSubset : ∀ queries k slots, Answered (ix.scoreSlotSubset queries k slots)
  scoreLabelSubset : ∀ queries k labels, Answered (ix.scoreLabelSubset queries k labels)
  expected_lt : ∀ queries k slots scores, ix.scoreSlotSubset queries k slots = .ok scores →
    queries.length / ix.dimension * k < Word.size
  setQuery : ∀ q, Scoring.Answered (Computer.setQuery ix.store q)
  distanceTo : ∀ slot, Scoring.Answered (Computer.distanceTo ix.store slot)
  distanceToFour : ∀ slots, Scoring.Answered (Computer.distanceToFour ix.store slots)
  symmetric : ∀ adapter i j, Answered (Computer.symmetric ix.store adapter i j)

theorem answered_queryCount (ix : Index) (queries : List Score) :
    Answered (ix.queryCount queries) := by
  unfold queryCount
  dsimp only
  split
  · exact answered_error trivial
  · exact answered_ok _

theorem answered_search (h : ix.Coherent) (queries : List Score) (k : Nat)
    (selector : Option Selector) : Answered (ix.search queries k selector) := by
  rw [search_eq_match h]
  cases hrefusal : refusal? ix.metric k selector with
  | none => exact (answered_queryCount ix queries).map _
  | some e =>
    have hchecks : Refuses (refusal? ix.metric k selector) :=
      refuses_ite trivial (refuses_ite trivial refuses_none)
    exact answered_error (hchecks e hrefusal)

theorem answered_rangeSearch (h : ix.Coherent) (queries : List Score) (radius : Score)
    (selector : Option Selector) : Answered (ix.rangeSearch queries radius selector) := by
  cases hm : ix.metric.isPrimary with
  | true =>
    rw [rangeSearch_eq_map h hm]
    exact (answered_queryCount ix queries).map _
  | false =>
    rw [rangeSearch_eq_error hm]
    exact answered_error trivial

theorem refuses_subsetFault? (ix : Index) (queries : List Score) (k : Nat)
    (slots : List (Option Nat)) : Refuses (ix.subsetFault? queries k slots) := by
  refine refuses_ite trivial (refuses_ite trivial (refuses_ite trivial ?_))
  refine refuses_ite trivial (refuses_ite trivial ?_)
  exact refuses_map _ fun slot => trivial

theorem answered_scoreSlotSubset (h : ix.Coherent) (queries : List Score) (k : Nat)
    (slots : List (Option Nat)) : Answered (ix.scoreSlotSubset queries k slots) := by
  rw [scoreSlotSubset_eq h]
  cases hfault : ix.subsetFault? queries k slots with
  | none => exact answered_ok _
  | some e => exact answered_error (refuses_subsetFault? ix queries k slots e hfault)

theorem answered_resolveCandidates (ix : Index) (labels : List (Option Nat)) :
    Answered (labels.mapM ix.resolveCandidate) := by
  induction labels with
  | nil => exact answered_ok _
  | cons label labels ih =>
    have hone : Answered (ix.resolveCandidate label) := by
      cases label with
      | none => exact answered_ok _
      | some label => exact (Store.answered_resolve ix.store label).map some
    rw [List.mapM_cons]
    exact hone.bind fun _ => ih.bind fun _ => answered_ok _

theorem responds (h : ix.Coherent) : ix.Responds where
  search := answered_search h
  rangeSearch := answered_rangeSearch h
  scoreSlotSubset := answered_scoreSlotSubset h
  scoreLabelSubset queries k labels :=
    (answered_resolveCandidates ix labels).bind fun _ => answered_scoreSlotSubset h queries k _
  expected_lt queries k slots scores hscores := by
    obtain ⟨hlength, hlt⟩ := length_scoreSlotSubset h hscores
    exact hlength ▸ hlt
  setQuery := Computer.answered_setQuery ix.store
  distanceTo := Computer.answered_distanceTo h.store
  distanceToFour := Computer.answered_distanceToFour h.store
  symmetric := Computer.answered_symmetric h.store

theorem store_of_ofSettings {memory : Memory} {settings : Settings} {ix₀ : Index}
    (hnew : Index.new memory settings.dimension settings.metric = .ok ix₀)
    (h : Index.ofSettings memory settings = .ok ix) : ix.store = ix₀.store := by
  obtain ⟨jx, hjx, hs⟩ := new_of_ofSettings h
  cases hnew.symm.trans hjx
  exact hs

/-- Whatever a run inserts, deletes, reserves and drops, as long as its labels are numbers of 64
bits: all positions and sizes stay in range, and every operation on the store gives a result or
refuses its arguments, with two exceptions. Packing does so exactly as long as the bytes of a code
are a number of 64 bits, and decoding exactly as long as the vectors of a range are not longer than
a buffer may be. Raw components never are, and every index over them answers, whichever way it was
built and whatever its tombstone policy is. -/
theorem run_in_range (memory : Memory) (metric : Metric) (calls : List Store.Call) :
    (∀ (α : Type) (codec : Codec α), 1 ≤ codec.dimension → 1 ≤ codec.codeLength →
      1 ≤ codec.width → ∃ s₀, Store.new memory codec metric = .ok s₀ ∧
        ((s₀.issued calls).length < Word.size →
          (s₀.run calls).InRange ∧ (s₀.run calls).Responds ∧ (s₀.run calls).DecodesWithin ∧
            ∀ start count, Answered ((s₀.run calls).packCodes start count) ↔
              codec.codeLength * codec.width < Word.size)) ∧
    (∀ dimension, 1 ≤ dimension → ∃ ix₀, Index.new memory dimension metric = .ok ix₀ ∧
      (∀ (settings : Settings) (ix : Index), settings.dimension = dimension →
        settings.metric = metric → Index.ofSettings memory settings = .ok ix →
        ix.store = ix₀.store) ∧
      ∀ ix : Index, (ix₀.store.issued calls).length < Word.size →
        ix.store = ix₀.store.run calls →
        ix.store.InRange ∧ ix.store.Responds ∧ ix.store.Decodes ∧ ix.Responds ∧
          ∀ start count, Answered (ix.store.packCodes start count) ↔
            4 * dimension < Word.size) := by
  constructor
  · intro α codec hd hc hwidth
    exact Store.inRange_run memory metric hd hc hwidth calls
  · intro dimension hd
    have hwidth : 1 ≤ (Codec.flat dimension).width := Nat.succ_pos 3
    obtain ⟨s₀, hs, hrun⟩ := Store.inRange_run memory metric hd hd hwidth calls
    have hnew : Index.new memory dimension metric = .ok { store := s₀ } := by
      rw [Index.new, hs]
      rfl
    refine ⟨_, hnew, ?_, ?_⟩
    · rintro settings ix rfl rfl hbuilt
      exact store_of_ofSettings hnew hbuilt
    · intro ix hissued hix
      obtain ⟨hin, hresponds, -, hpack⟩ := hrun hissued
      have h : ix.Coherent := ((Reachable.new hnew).run calls).coherent.of_store_eq hix
      have hbytes : (Codec.flat dimension).codeLength * (Codec.flat dimension).width =
          4 * dimension := Nat.mul_comm _ _
      rw [hbytes] at hpack
      exact ⟨hix ▸ hin, hix ▸ hresponds, Store.decodes_of_flat h.store h.fits h.codec_eq,
        responds h, hix ▸ hpack⟩

/-- A run that reuses a slot and is refused more room than any buffer has. -/
theorem run_in_range_recycled :
    let codec := Codec.quantized 2 1 true
    let calls : List Store.Call := [.add [⟨1⟩, ⟨2⟩, ⟨3⟩, ⟨4⟩], .delete [0], .add [⟨5⟩, ⟨6⟩],
      .delete [2], .reserve (Word.size - 1)]
    (1 ≤ codec.dimension ∧ 1 ≤ codec.codeLength ∧ 1 ≤ codec.width ∧
      codec.codeLength * codec.width < Word.size ∧ 1 ≤ 2) ∧
    (∃ s₀, Store.new .host codec .l2 = .ok s₀ ∧ (s₀.issued calls).length < Word.size ∧
      let s := s₀.run calls
      1 * 3 + 3 ≤ s.codes.length ∧ s.free.members ≠ [] ∧ 0 < s.pending ∧
        Answered (s.codesRange (Word.size - 1) 2) ∧ Answered (s.packCodes 0 2) ∧
        Answered (s.reconstructRange (Word.size - 1) 2)) ∧
    ∃ ix₀, Index.new .host 2 .l2 = .ok ix₀ ∧ (ix₀.store.issued calls).length < Word.size ∧
      let ix := ix₀.run calls
      ix.store.tombstones.countOnes = ix.store.pending ∧
        Answered (ix.store.reconstruct (Word.size - 1)) ∧
        Answered (ix.search [Score.half, Score.nan] (Word.size - 1) none) ∧
        Answered (ix.scoreSlotSubset [Score.half, Score.nan] (Word.size - 1) [some (Word.size - 1)]) ∧
        Scoring.Answered (Computer.distanceTo ix.store (Word.size - 1)) := by
  intro codec calls
  obtain ⟨hstores, hindexes⟩ := run_in_range .host .l2 calls
  obtain ⟨s₀, hs, hrun⟩ := hstores UInt8 codec (by decide) (by decide) (by decide)
  obtain ⟨ix₀, hix, -, hixRun⟩ := hindexes 2 (by decide)
  refine ⟨by decide, ⟨s₀, hs, ?_⟩, ix₀, hix, ?_⟩
  · cases hs
    let s₀ : Store UInt8 := { memory := .host, codec, metric := .l2 }
    have hissued : (s₀.issued calls).length < Word.size := by decide +kernel
    obtain ⟨hin, hresponds, hdecodes, hpacks⟩ := hrun hissued
    have hfree : (s₀.run calls).free.members ≠ [] := by decide +kernel
    have hphysical : (s₀.run calls).physical = 2 := by decide +kernel
    have hcode : (s₀.run calls).codec.codeLength = 3 := by decide +kernel
    have hend := hin.row_end_le 1 (hphysical ▸ Nat.one_lt_two)
    rw [hcode] at hend
    have hbeyond : ¬Word.size - 1 + 2 ≤ (s₀.run calls).physical := by
      rw [hphysical]
      decide
    exact ⟨hissued, hend, hfree, hin.pending_pos hfree, hresponds.codesRange _ 2,
      (hpacks 0 2).mpr (by decide),
      (hdecodes.reconstructRange_iff _ 2).mpr fun hle => absurd hle hbeyond⟩
  · let s₀ : Store Single := { memory := .host, codec := .flat 2, metric := .l2 }
    obtain rfl : { store := s₀ } = ix₀ := Except.ok.inj hix
    have hissued : (s₀.issued calls).length < Word.size := by decide +kernel
    obtain ⟨hin, -, hdecodes, hresponds, -⟩ :=
      hixRun (Index.run { store := s₀ } calls) hissued rfl
    exact ⟨hissued, hin.countOnes_eq, hdecodes.reconstruct _, hresponds.search _ _ _,
      hresponds.scoreSlotSubset _ _ _, hresponds.distanceTo _⟩

/-- One byte for a vector of `2 ^ 40` zeros. -/
def zeros : Codec UInt8 :=
  { Codec.blank 0x10000000000 with
    codeLength := 1
    encode := fun _ => [0]
    length_encode := fun _ _ => rfl
    length_decode := fun _ _ => List.length_replicate }

/-- Two operations that stop instead of refusing. An index of raw components may be so wide that
there is no size for its codes, and codes of one byte may be decoded to more bytes than a buffer
has. -/
theorem overrun_without_refusal :
    (∃ ix₀, Index.new .host 0x4000000000000000 .l2 = .ok ix₀ ∧
      ¬Answered (ix₀.store.packCodes 0 0)) ∧
    (1 ≤ zeros.dimension ∧ 1 ≤ zeros.codeLength ∧ 1 ≤ zeros.width ∧
      zeros.codeLength * zeros.width < 2 ^ 63) ∧
    ∃ s₀, Store.new .host zeros .l2 = .ok s₀ ∧ ∃ calls : List Store.Call,
      (s₀.issued calls).length < Word.size ∧
        ¬Answered ((s₀.run calls).reconstructRange 0 0x200000) := by
  let x : List Single := List.replicate 0x10000000000 ⟨0⟩
  let calls : List Store.Call := List.replicate 0x200000 (.add x)
  refine ⟨⟨_, rfl, fun hanswered => hanswered .overrun rfl⟩, by decide, _, rfl, calls, ?_⟩
  let s₀ : Store UInt8 := { memory := .host, codec := zeros, metric := .l2 }
  have h₀ : s₀.Coherent := Store.coherent_of_empty (by decide) (by decide)
  have hroom : s₀.memory.Holds ((s₀.physical + 0x200000) * s₀.codec.codeLength * s₀.codec.width)
      (s₀.physical + 0x200000) := ⟨by decide, by decide⟩
  have hx : x.length = s₀.dimension := List.length_replicate
  obtain ⟨hphysical, hissued⟩ := Store.run_repeated h₀ rfl rfl hx (by decide) hroom
  refine ⟨hissued.trans_lt (by decide), fun hanswered => ?_⟩
  obtain ⟨h, hcodec⟩ := h₀.run calls
  have hdecoded := (Store.answered_reconstructRange_iff h 0 0x200000).mp hanswered
    (by rw [hphysical]; decide)
  rw [hcodec] at hdecoded
  exact absurd hdecoded (by decide)

end Index
end ExactNeighbors
