import ExactNeighbors.Proofs.Store.Insert

/-! # Which slots an insertion takes

The rows of one insertion take the dead slots, the least one first, and then new slots behind all
others. This is said once for all rows: a row takes the head of the free slots away, so that the
slots of the rows behind it are those that the store before it had for them.
-/
namespace ExactNeighbors.Store

variable {α : Type} {s t : Store α} {row : List Single} {rows : List (List Single)}
variable {slot label j n : Nat}

def seat (s : Store α) (j : Nat) : Nat :=
  if h : j < s.free.members.length then s.free.members[j]
  else s.physical + (j - s.free.members.length)

/-- All that a store has about one slot: the label, the tombstone and the code. -/
def contentOf (s : Store α) (slot : Nat) : Option Nat × Bool × List α :=
  (s.labelOf? slot, s.isDeleted slot, s.codeOf slot)

theorem seat_zero (s : Store α) : s.seat 0 = s.nextSlot := by
  unfold seat nextSlot
  cases s.free.members with
  | nil => simp
  | cons least rest => simp

/-- A vector takes a dead slot or a new one. -/
theorem Coherent.seat_vacant (h : Coherent s) (j : Nat) :
    s.isDeleted (s.seat j) = true ∨ s.physical ≤ s.seat j := by
  unfold seat
  split
  · exact Or.inl ((h.mem_free_iff _).mp (List.getElem_mem _))
  · exact Or.inr (Nat.le_add_right _ _)

namespace Placed

theorem contentOf_eq (p : Placed s row t) (slot : Nat) : t.contentOf slot =
    if slot = s.nextSlot then (some s.nextLabel, false, s.codec.encode row)
    else s.contentOf slot := by
  rw [contentOf, p.labelOf?_eq, p.isDeleted_eq, p.codeOf_eq]
  by_cases hslot : slot = s.nextSlot
  · simp [hslot]
  · simp [hslot, contentOf]

theorem physical_add (h : Coherent s) (p : Placed s row t) :
    t.physical = s.physical + (1 - s.free.members.length) := by
  rw [p.physical_eq, nextSlot]
  cases hfree : s.free.members with
  | nil => simp
  | cons least rest =>
    have hdead := (h.mem_free_iff least).mp (hfree ▸ List.mem_cons_self)
    have hlt := h.lt_physical_of_deleted hdead
    simp only [List.headD_cons, List.length_cons]
    omega

/-- The first row moves the others one place down. -/
theorem seat_eq (h : Coherent s) (p : Placed s row t) (j : Nat) : t.seat j = s.seat (j + 1) := by
  have hphysical := p.physical_add h
  have hlength : s.free.members.tail.length = s.free.members.length - 1 := List.length_tail
  unfold seat
  simp only [p.free_eq]
  by_cases hj : j + 1 < s.free.members.length
  · rw [dif_pos (by omega), dif_pos hj, List.getElem_tail]
  · rw [dif_neg (by omega), dif_neg hj, hphysical]
    omega

end Placed

structure Seated (s : Store α) (rows : List (List Single)) (t : Store α) : Prop where
  physical_eq : t.physical = s.physical + (rows.length - s.free.members.length)
  pending_eq : t.pending = s.pending - rows.length
  free_eq : t.free.members = s.free.members.drop rows.length
  taken : ∀ j (hj : j < rows.length), t.contentOf (s.seat j) =
    (some (s.nextLabel + j), false, s.codec.encode rows[j])
  others : ∀ slot, (∀ j < rows.length, s.seat j ≠ slot) → t.contentOf slot = s.contentOf slot

theorem PlacedAll.seated (h : Coherent s) (p : PlacedAll s rows t) : Seated s rows t := by
  induction p with
  | nil s =>
    constructor
    case taken =>
      intro j hj
      exact absurd hj (Nat.not_lt_zero j)
    all_goals simp
  | @cons s t u row rows first _ ih =>
    have ht := first.coherent h
    have later := ih ht
    have hseat := first.seat_eq h
    have hcontent := first.contentOf_eq
    -- The slot of the first row is alive from now on, so no later row takes it.
    have hkept : ∀ j < rows.length, t.seat j ≠ s.seat 0 := by
      intro j _ he
      have hphysical := first.physical_eq
      have hvacant := ht.seat_vacant j
      rw [he, seat_zero, first.isDeleted_eq] at hvacant
      rcases hvacant with hdead | hge
      · simp at hdead
      · omega
    constructor
    case physical_eq =>
      rw [later.physical_eq, first.physical_add h, first.free_eq, List.length_tail,
        List.length_cons]
      omega
    case pending_eq =>
      rw [later.pending_eq, first.pending_eq, List.length_cons]
      omega
    case free_eq => rw [later.free_eq, first.free_eq, List.drop_tail, List.length_cons]
    case taken =>
      intro j hj
      cases j with
      | zero =>
        rw [later.others _ hkept, hcontent, if_pos (seat_zero s)]
        rfl
      | succ j =>
        rw [← hseat, later.taken j (Nat.lt_of_succ_lt_succ hj), first.nextLabel_eq,
          first.codec_eq, List.getElem_cons_succ, Nat.add_assoc, Nat.add_comm 1]
    case others =>
      intro slot hslot
      have hfirst : slot ≠ s.nextSlot := by
        rw [← seat_zero]
        exact (hslot 0 (Nat.succ_pos _)).symm
      have hlater : ∀ j < rows.length, t.seat j ≠ slot := by
        intro j hj
        rw [hseat]
        exact hslot (j + 1) (Nat.succ_lt_succ hj)
      rw [later.others slot hlater, hcontent, if_neg hfirst]

theorem PlacedAll.physical_le (h : Coherent s) (p : PlacedAll s rows t) :
    t.physical ≤ s.physical + rows.length := by
  rw [(p.seated h).physical_eq]
  exact Nat.add_le_add_left (Nat.sub_le _ _) _

/-- A label whose slot is taken has a dead slot: new slots have no label yet. -/
theorem Coherent.dead_of_seat (h : Coherent s) (hs : s.slotOf? label = some (s.seat j)) :
    s.isDeleted (s.seat j) = true := by
  refine (h.seat_vacant j).resolve_right fun hge => ?_
  exact absurd (h.lt_physical_of_slotOf? hs) (Nat.not_lt.mpr hge)

/-- The labels whose slots are taken are those in the first free slots. -/
theorem Coherent.exists_seat_iff (h : Coherent s) : (∃ j < n, s.slotOf? label = some (s.seat j)) ↔
    ∃ slot ∈ s.free.members.take n, s.labelOf? slot = some label := by
  constructor
  · rintro ⟨j, hj, hs⟩
    have hlt := h.lt_physical_of_slotOf? hs
    have hl := (h.slotOf?_iff _ _).mp hs
    unfold seat at hlt hl
    split at hl
    · rename_i hfree
      exact ⟨_, List.mem_take_iff_getElem.mpr ⟨j, by omega, rfl⟩, hl⟩
    · rename_i hfree
      rw [dif_neg hfree] at hlt
      omega
  · rintro ⟨slot, hm, hl⟩
    obtain ⟨j, hj, rfl⟩ := List.mem_take_iff_getElem.mp hm
    refine ⟨j, by omega, ?_⟩
    rw [seat, dif_pos (by omega)]
    exact (h.slotOf?_iff _ _).mpr hl

namespace Seated

/-- What is found in a slot that a row took, and under the label of the row. -/
theorem found (ht : Coherent t) (seated : Seated s rows t) (hj : j < rows.length) :
    t.labelOf? (s.seat j) = some (s.nextLabel + j) ∧
      t.slotOf? (s.nextLabel + j) = some (s.seat j) ∧ t.isDeleted (s.seat j) = false ∧
      t.codeOf (s.seat j) = s.codec.encode rows[j] := by
  have hcontent := seated.taken j hj
  have hlabel : t.labelOf? (s.seat j) = some (s.nextLabel + j) := congrArg Prod.fst hcontent
  exact ⟨hlabel, (ht.slotOf?_iff _ _).mpr hlabel, congrArg (·.2.1) hcontent,
    congrArg (·.2.2) hcontent⟩

/-- A label from before resolves as it did, unless its slot is taken. -/
theorem slotOf?_old_iff (h : Coherent s) (ht : Coherent t) (seated : Seated s rows t)
    (hold : label < s.nextLabel ∨ s.nextLabel + rows.length ≤ label) :
    t.slotOf? label = some slot ↔
      s.slotOf? label = some slot ∧ ∀ j < rows.length, s.seat j ≠ slot := by
  rw [ht.slotOf?_iff, h.slotOf?_iff]
  by_cases hslot : ∀ j < rows.length, s.seat j ≠ slot
  · have hsame : t.labelOf? slot = s.labelOf? slot := congrArg Prod.fst (seated.others slot hslot)
    rw [hsame, and_iff_left hslot]
  · push Not at hslot
    obtain ⟨j, hj, rfl⟩ := hslot
    have hnew := (seated.found ht hj).1
    constructor
    · intro hl
      rw [hnew, Option.some.injEq] at hl
      omega
    · rintro ⟨-, hne⟩
      exact absurd rfl (hne j hj)

theorem slotOf?_taken (h : Coherent s) (ht : Coherent t) (seated : Seated s rows t)
    (hj : j < rows.length) (hs : s.slotOf? label = some (s.seat j)) : t.slotOf? label = none := by
  have hold := h.label_lt_of_slotOf? hs
  refine Option.eq_none_iff_forall_ne_some.mpr fun slot hslot => ?_
  obtain ⟨hs', hne⟩ := (seated.slotOf?_old_iff h ht (Or.inl hold)).mp hslot
  exact hne j hj (Option.some.inj (hs.symm.trans hs'))

theorem slotOf?_kept (h : Coherent s) (ht : Coherent t) (seated : Seated s rows t)
    (hold : label < s.nextLabel ∨ s.nextLabel + rows.length ≤ label)
    (hfree : ∀ j < rows.length, s.slotOf? label ≠ some (s.seat j)) :
    t.slotOf? label = s.slotOf? label := by
  apply Option.ext
  intro slot
  rw [seated.slotOf?_old_iff h ht hold, and_iff_left_of_imp]
  rintro hs j hj rfl
  exact hfree j hj hs

end Seated
end ExactNeighbors.Store
