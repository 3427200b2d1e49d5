import ExactNeighbors.Proofs.Store.Read
import ExactNeighbors.Proofs.Store.Run
import ExactNeighbors.Proofs.Store.Seats

/-! # The recycling law

One insertion as a reader of the store sees it: which labels it answers, what is found in the slots
that it takes, which labels it retires, and that it leaves the rest alone.
-/
namespace ExactNeighbors.Store

variable {α : Type} {s t : Store α} {rows : List (List Single)} {slot label j : Nat}

namespace Seated

theorem retired_iff (h : Coherent s) (ht : Coherent t) (seated : Seated s rows t) :
    (∃ slot, s.slotOf? label = some slot) ∧ t.slotOf? label = none ↔
      ∃ slot ∈ s.free.members.take rows.length, s.labelOf? slot = some label := by
  rw [← h.exists_seat_iff]
  constructor
  · rintro ⟨⟨slot, hs⟩, hgone⟩
    by_contra hfree
    push Not at hfree
    have hkept := seated.slotOf?_kept h ht (Or.inl (h.label_lt_of_slotOf? hs)) hfree
    rw [hgone, hs] at hkept
    cases hkept
  · rintro ⟨j, hj, hs⟩
    exact ⟨⟨_, hs⟩, seated.slotOf?_taken h ht hj hs⟩

theorem read_other (h : Coherent s) (ht : Coherent t) (seated : Seated s rows t)
    (hlt : slot < s.physical) (hslot : ∀ j < rows.length, s.seat j ≠ slot) :
    t.labelOf? slot = s.labelOf? slot ∧ t.isDeleted slot = s.isDeleted slot ∧
      t.code slot = s.code slot := by
  have hcontent := seated.others slot hslot
  have hcode : t.codeOf slot = s.codeOf slot := congrArg (·.2.2) hcontent
  have hphysical := seated.physical_eq
  refine ⟨congrArg Prod.fst hcontent, congrArg (·.2.1) hcontent, ?_⟩
  rw [ht.code_eq (by omega), h.code_eq hlt, hcode]

end Seated

/-- An insertion of whole vectors answers the next labels in order. Vector `j` goes to the `j`-th
free slot, or behind all slots when there are not that many free ones, and is found there alive
under its label. The labels that these free slots had are retired and no others; all other slots and
labels are as before. What is left of the free slots is the list without those taken. -/
theorem recycling_law {memory : Memory} {codec : Codec α} {metric : Metric} {s₀ : Store α}
    (hnew : Store.new memory codec metric = .ok s₀) (htrained : codec.isTrained = true)
    (calls : List Call) {x : List Single} {n : Nat} (hx : x.length = n * codec.dimension)
    (hroom : 0 < n → (s₀.run calls).reserve n = .ok ()) :
    let s := s₀.run calls
    let free := s.free.members
    let reused := min n free.length
    free.Pairwise (· < ·) ∧
    ∃ t, s.add x = .ok ((List.range n).map (s.nextLabel + ·), t) ∧ s.after (.add x) = t ∧
      (∀ j < n, t.labelOf? (s.seat j) = some (s.nextLabel + j) ∧
        t.slotOf? (s.nextLabel + j) = some (s.seat j) ∧ t.isDeleted (s.seat j) = false ∧
        t.code (s.seat j) =
          .ok (codec.encode ((x.drop (j * codec.dimension)).take codec.dimension))) ∧
      (∀ label, (∃ slot, s.slotOf? label = some slot) ∧ t.slotOf? label = none ↔
        ∃ slot ∈ free.take reused, s.labelOf? slot = some label) ∧
      (∀ slot < s.physical, (∀ j < n, s.seat j ≠ slot) → t.labelOf? slot = s.labelOf? slot ∧
        t.isDeleted slot = s.isDeleted slot ∧ t.code slot = s.code slot) ∧
      (∀ label, label < s.nextLabel ∨ s.nextLabel + n ≤ label →
        (∀ slot ∈ free.take reused, s.labelOf? slot ≠ some label) →
        t.slotOf? label = s.slotOf? label) ∧
      t.pending = free.length - reused ∧ t.physical = s.physical + (n - reused) ∧
      t.nextLabel = s.nextLabel + n ∧ t.free.members = free.drop reused := by
  intro s free reused
  have h₀ := coherent_of_new hnew
  obtain ⟨h, hcodec⟩ : Coherent s ∧ s.codec = s₀.codec := h₀.run calls
  have hcodec : s.codec = codec := by
    obtain ⟨rfl, -⟩ := eq_of_new hnew
    exact hcodec
  have hx : x.length = n * s.dimension := by rw [dimension, hcodec, hx]
  have hfault := addFault?_of_reserve h.dimension_pos (hcodec ▸ htrained) hx hroom
  obtain ⟨t, hadd, hplaced⟩ := add_eq_ok h hfault
  have hrows : (Rows.split s.dimension x).length = n := Rows.length_split_whole h.dimension_pos hx
  have hcount : x.length / s.dimension = n := by rw [← Rows.length_split, hrows]
  have ht := hplaced.coherent h
  have seated := hplaced.seated h
  have htake : free.take n = free.take reused := List.take_eq_take_min
  have hdrop : free.drop n = free.drop reused := List.drop_eq_drop_min
  have hpending : s.pending = free.length := h.pending_eq
  rw [← htake, ← hdrop]
  refine ⟨h.free_sorted, t, ?_, ?_, ?_, ?_, ?_, ?_, ?_, ?_, ?_, ?_⟩
  · rw [hadd, hcount, List.range'_eq_map_range]
  · rw [after, hadd]
  · intro j hj
    obtain ⟨hlabel, hslot, halive, hcode⟩ := seated.found ht (j := j) (by omega)
    rw [Rows.getElem_split, dimension, hcodec] at hcode
    refine ⟨hlabel, hslot, halive, ?_⟩
    rw [ht.code_eq (ht.lt_physical_of_slotOf? hslot), hcode, Rows.rowAt]
  · intro label
    rw [seated.retired_iff h ht, hrows]
  · intro slot hlt hslot
    exact seated.read_other h ht hlt (by rwa [hrows])
  · intro label hold hfree
    refine seated.slotOf?_kept h ht (by rwa [hrows]) fun j hj hs => ?_
    obtain ⟨slot, hm, hl⟩ := h.exists_seat_iff.mp ⟨j, hj, hs⟩
    exact hfree slot (hrows ▸ hm) hl
  · rw [seated.pending_eq, hrows]
    omega
  · rw [seated.physical_eq, hrows]
    change s.physical + (n - free.length) = s.physical + (n - min n free.length)
    omega
  · rw [hplaced.nextLabel_eq, hrows]
  · rw [seated.free_eq, hrows]

/-- Slots 0 and 2 are dead and three vectors come: the third one opens slot 3. -/
theorem recycling_law_past_free :
    let s₀ : Store Single := { memory := .host, codec := Codec.flat 1, metric := .l2 }
    let calls : List Call := [.add [⟨1⟩, ⟨2⟩, ⟨3⟩], .delete [2, 0]]
    let x : List Single := [⟨4⟩, ⟨5⟩, ⟨6⟩]
    let s := s₀.run calls
    Store.new .host (Codec.flat 1) .l2 = .ok s₀ ∧ (Codec.flat 1).isTrained = true ∧
      x.length = 3 * (Codec.flat 1).dimension ∧ (0 < 3 → s.reserve 3 = .ok ()) ∧
      s.free.members = [0, 2] ∧ (List.range 3).map s.seat = [0, 2, 3] ∧
      ∃ t, s.add x = .ok ([3, 4, 5], t) ∧ t.slotOf? 5 = some 3 ∧
        t.code 2 = .ok [⟨5⟩] ∧ t.slotOf? 0 = none ∧ t.slotOf? 1 = some 1 ∧ t.pending = 0 := by
  intro s₀ calls x s
  have hnew : Store.new .host (Codec.flat 1) .l2 = .ok s₀ := rfl
  have hroom : 0 < 3 → s.reserve 3 = .ok () := fun _ => reserve_eq_ok_iff.mpr (by decide)
  have hfree : s.free.members = [0, 2] := by decide
  have hseats : (List.range 3).map s.seat = [0, 2, 3] := by decide
  have hlabels : (List.range 3).map (s.nextLabel + ·) = [3, 4, 5] := by decide
  have hsecond : (s₀.run calls).seat 1 = 2 := by decide
  have hthird : (s₀.run calls).seat 2 = 3 ∧ (s₀.run calls).nextLabel + 2 = 5 := by decide
  obtain ⟨-, t, hadd, -, htaken, hretired, -, hkept, hpending, -⟩ :=
    recycling_law hnew rfl calls (x := x) (n := 3) rfl hroom
  refine ⟨hnew, rfl, rfl, hroom, hfree, hseats, t, hlabels ▸ hadd, ?_, ?_, ?_, ?_, ?_⟩
  · have hslot := (htaken 2 (by decide)).2.1
    rwa [hthird.1, hthird.2] at hslot
  · have hcode := (htaken 1 (by decide)).2.2.2
    rwa [hsecond] at hcode
  · exact ((hretired 0).mpr ⟨0, by decide, by decide⟩).2
  · exact (hkept 1 (by decide) (by decide)).trans (by decide)
  · exact hpending.trans (by decide)

end ExactNeighbors.Store
