import ExactNeighbors.Proofs.Store.Delete
import ExactNeighbors.Proofs.Store.Seats

/-! # What insertions make of a label

Seen from one label, any number of insertions does one of three things: it issues the label, it
retires it by giving its dead slot to a new label, or it leaves the label, its slot, the tombstone
and the code there as they were.
-/
namespace ExactNeighbors.Store

variable {α : Type} {s t : Store α} {row : List Single} {rows : List (List Single)} {label : Nat}

inductive Moved (s t : Store α) (label : Nat) : Prop where
  | issued (unused : s.nextLabel ≤ label) (used : label < t.nextLabel) (live : t.Live label)
  | retired (slot heir : Nat) (held : s.slotOf? label = some slot) (dead : s.isDeleted slot = true)
      (gone : t.slotOf? label = none) (unused : s.nextLabel ≤ heir) (used : heir < t.nextLabel)
      (holds : t.slotOf? heir = some slot) (alive : t.isDeleted slot = false)
  | kept (old : label < s.nextLabel ∨ t.nextLabel ≤ label)
      (same : t.slotOf? label = s.slotOf? label)
      (same_slot : ∀ slot, s.slotOf? label = some slot →
        t.isDeleted slot = s.isDeleted slot ∧ t.codeOf slot = s.codeOf slot)

theorem PlacedAll.nextLabel_le (p : PlacedAll s rows t) : s.nextLabel ≤ t.nextLabel := by
  rw [p.nextLabel_eq]
  exact Nat.le_add_right _ _

theorem PlacedAll.moved (h : Coherent s) (p : PlacedAll s rows t) (label : Nat) :
    Moved s t label := by
  have ht := p.coherent h
  have seated := p.seated h
  have hnext := p.nextLabel_eq
  by_cases hold : label < s.nextLabel ∨ s.nextLabel + rows.length ≤ label
  · by_cases htaken : ∃ j < rows.length, s.slotOf? label = some (s.seat j)
    · obtain ⟨j, hj, hs⟩ := htaken
      obtain ⟨-, hheir, halive, -⟩ := seated.found ht hj
      exact .retired (s.seat j) (s.nextLabel + j) hs (h.dead_of_seat hs)
        (seated.slotOf?_taken h ht hj hs) (Nat.le_add_right _ _) (by omega) hheir halive
    · push Not at htaken
      refine .kept (hnext ▸ hold) (seated.slotOf?_kept h ht hold htaken) fun slot hs => ?_
      have hcontent := seated.others slot fun j hj he => htaken j hj (he ▸ hs)
      exact ⟨congrArg (·.2.1) hcontent, congrArg (·.2.2) hcontent⟩
  · obtain ⟨j, rfl⟩ := Nat.exists_eq_add_of_le (show s.nextLabel ≤ label by omega)
    obtain ⟨-, hslot, halive, -⟩ := seated.found ht (j := j) (by omega)
    exact .issued (Nat.le_add_right _ _) (by omega) ⟨_, hslot, halive⟩

/-- Row `i` ends up under the `i`-th new label, in a slot that holds its encoding. -/
theorem PlacedAll.placed_row (h : Coherent s) (p : PlacedAll s rows t) {i : Nat}
    (hi : rows[i]? = some row) :
    ∃ slot, t.slotOf? (s.nextLabel + i) = some slot ∧ t.isDeleted slot = false ∧
      t.codeOf slot = s.codec.encode row := by
  obtain ⟨hlt, rfl⟩ := List.getElem?_eq_some_iff.mp hi
  exact ⟨s.seat i, ((p.seated h).found (p.coherent h) hlt).2⟩

end ExactNeighbors.Store
