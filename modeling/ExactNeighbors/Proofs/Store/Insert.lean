import ExactNeighbors.Proofs.Store.Coherent

/-! # What an insertion does

A vector goes to the least dead slot, or behind all slots when none is dead. Both branches of
`place` have one law: the slot gets the code, a fresh label and life, its former label stops
resolving, and every other slot and label stays as it was. Insertions of several vectors are such
steps one after the other.
-/
namespace ExactNeighbors.Store

variable {α : Type} {s t u : Store α} {row : List Single} {rows : List (List Single)}

def nextSlot (s : Store α) : Nat := s.free.members.headD s.physical

structure Placed (s : Store α) (row : List Single) (t : Store α) : Prop where
  memory_eq : t.memory = s.memory
  codec_eq : t.codec = s.codec
  metric_eq : t.metric = s.metric
  nextLabel_eq : t.nextLabel = s.nextLabel + 1
  physical_eq : t.physical = max s.physical (s.nextSlot + 1)
  pending_eq : t.pending = s.pending - 1
  free_eq : t.free.members = s.free.members.tail
  codes_length : t.codes.length = t.physical * s.codec.codeLength
  tombstones_sound : t.tombstones.Sound
  tombstones_length : t.tombstones.length = t.physical
  labelOf?_eq : ∀ slot, t.labelOf? slot =
    if slot = s.nextSlot then some s.nextLabel else s.labelOf? slot
  slotOf?_eq : ∀ label, t.slotOf? label =
    if label = s.nextLabel then some s.nextSlot
    else if s.labelOf? s.nextSlot = some label then none else s.slotOf? label
  isDeleted_eq : ∀ slot, t.isDeleted slot = (s.isDeleted slot && decide (slot ≠ s.nextSlot))
  codeOf_eq : ∀ slot, t.codeOf slot =
    if slot = s.nextSlot then s.codec.encode row else s.codeOf slot

/-- Looking up a label after another one is dropped and a new one is entered. -/
theorem slots_replace (slots : Std.TreeMap Nat Nat) (old new slot label : Nat) :
    ((slots.erase old).insert new slot)[label]? =
      if label = new then some slot else if old = label then none else slots[label]? := by
  rw [Std.TreeMap.getElem?_insert, Std.TreeMap.getElem?_erase]
  simp only [Nat.compare_eq_eq, eq_comm (a := new)]

theorem slots_insert (slots : Std.TreeMap Nat Nat) (new slot label : Nat) :
    (slots.insert new slot)[label]? = if label = new then some slot else slots[label]? := by
  rw [Std.TreeMap.getElem?_insert]
  simp only [Nat.compare_eq_eq, eq_comm (a := new)]

theorem placed_recycle (h : Coherent s) (hrow : row.length = s.dimension) {slot : Nat}
    {rest : List Nat} (hfree : s.free.members = slot :: rest) :
    ∃ t, s.recycle slot ⟨rest⟩ (s.codec.encode row) = .ok t ∧ Placed s row t := by
  have hslot : s.nextSlot = slot := by rw [nextSlot, hfree, List.headD_cons]
  have hdead : s.isDeleted slot = true := (h.mem_free_iff slot).mp (hfree ▸ List.mem_cons_self)
  have hlt := h.lt_physical_of_deleted hdead
  have hend := h.codeRow_end_le hlt
  have hcode := s.codec.length_encode row hrow
  have hpending : s.pending = rest.length + 1 := by rw [h.pending_eq, IdSet.size, hfree]; rfl
  have hbits : slot < s.tombstones.length := h.tombstones_length ▸ hlt
  obtain ⟨retired, hretired⟩ : ∃ retired, s.labels[slot]? = some retired :=
    ⟨_, List.getElem?_eq_getElem hlt⟩
  refine ⟨_, by rw [recycle, hretired]; exact if_pos ⟨hend, hbits, by omega⟩, ?_⟩
  constructor
  case memory_eq => rfl
  case codec_eq => rfl
  case metric_eq => rfl
  case nextLabel_eq => rfl
  case physical_eq => simp only [physical, List.length_set, hslot] at hlt ⊢; omega
  case pending_eq => rfl
  case free_eq => rw [hfree]; rfl
  case codes_length =>
    rw [Rows.length_overlay (by omega), h.codes_length]
    simp [physical]
  case tombstones_sound => exact h.tombstones_sound.unset hbits
  case tombstones_length => simpa [physical] using h.tombstones_length
  case labelOf?_eq =>
    intro other
    simp only [labelOf?, List.getElem?_set, hslot, eq_comm (a := other)]
    split
    · exact if_pos hlt
    · rfl
  case slotOf?_eq =>
    intro label
    simp only [slotOf?, slots_replace, hslot, labelOf?, hretired, Option.some.injEq]
  case isDeleted_eq => intro other; simp only [isDeleted, h.tombstones_sound.get_unset hbits, hslot]
  case codeOf_eq =>
    intro other
    simp only [codeOf, hslot]
    split
    · subst other; exact Rows.rowAt_overlay_self hcode hend
    · exact Rows.rowAt_overlay_of_ne hcode hend ‹_›

theorem physical_append (s : Store α) (code : List α) :
    (s.append code).physical = s.physical + 1 := List.length_append

theorem labelOf?_append (s : Store α) (code : List α) (slot : Nat) :
    (s.append code).labelOf? slot =
      if slot = s.physical then some s.nextLabel else s.labelOf? slot := by
  by_cases hslot : slot = s.physical
  · rw [if_pos hslot, hslot]
    exact List.getElem?_concat_length
  · rw [if_neg hslot]
    rcases Nat.lt_or_ge slot s.physical with hlt | hge
    · exact List.getElem?_append_left hlt
    · have hbehind : (s.append code).physical ≤ slot := by
        rw [physical_append]
        omega
      rw [labelOf?_eq_none_iff.mpr hge, labelOf?_eq_none_iff.mpr hbehind]

theorem isDeleted_append (h : Coherent s) (code : List α) (slot : Nat) :
    (s.append code).isDeleted slot = (s.isDeleted slot && decide (slot ≠ s.physical)) := by
  have hget := h.tombstones_sound.get_push_false slot
  by_cases hslot : slot = s.physical
  · subst slot
    simp [append, isDeleted, hget, Bitmap.get_eq_false h.tombstones_length.le]
  · simp [append, isDeleted, hget, hslot]

theorem codeOf_append (h : Coherent s) {code : List α} (hcode : code.length = s.codec.codeLength)
    (slot : Nat) :
    (s.append code).codeOf slot = if slot = s.physical then code else s.codeOf slot := by
  simp only [append, codeOf]
  split
  · subst slot
    exact Rows.rowAt_append_right h.codes_length hcode
  · rcases Nat.lt_or_ge slot s.physical with hlt | hge
    · exact Rows.rowAt_append_left (h.codeRow_end_le hlt)
    · have hbehind : s.physical < slot := by omega
      have hend := Rows.end_le s.codec.codeLength hbehind
      have hlen := h.codes_length
      rw [Rows.rowAt_eq_nil (by rw [List.length_append]; omega), Rows.rowAt_eq_nil (by omega)]

theorem placed_append (h : Coherent s) (hrow : row.length = s.dimension)
    (hfree : s.free.members = []) : Placed s row (s.append (s.codec.encode row)) := by
  have hslot : s.nextSlot = s.physical := by rw [nextSlot, hfree, List.headD_nil]
  have hcode := s.codec.length_encode row hrow
  have hphysical := physical_append s (s.codec.encode row)
  have hnone : s.labelOf? s.physical = none := labelOf?_eq_none_iff.mpr (Nat.le_refl _)
  constructor
  case memory_eq => rfl
  case codec_eq => rfl
  case metric_eq => rfl
  case nextLabel_eq => rfl
  case physical_eq => omega
  case pending_eq =>
    have hpending : s.pending = 0 := by rw [h.pending_eq, IdSet.size, hfree]; rfl
    simp [append, hpending]
  case free_eq => simp [append, hfree]
  case codes_length =>
    rw [hphysical, Nat.succ_mul, ← h.codes_length, ← hcode]
    exact List.length_append
  case tombstones_sound => exact h.tombstones_sound.push false
  case tombstones_length =>
    rw [hphysical, ← h.tombstones_length]
    exact Bitmap.length_push false
  case labelOf?_eq =>
    intro other
    rw [hslot, labelOf?_append]
  case slotOf?_eq =>
    intro label
    rw [hslot, hnone]
    simp only [append, slotOf?, slots_insert, reduceCtorEq, ↓reduceIte]
  case isDeleted_eq =>
    intro other
    rw [hslot, isDeleted_append h]
  case codeOf_eq =>
    intro other
    rw [hslot, codeOf_append h hcode]

theorem place_eq (h : Coherent s) (hrow : row.length = s.dimension) :
    ∃ t, s.place row = .ok t ∧ Placed s row t := by
  cases hfree : s.free.members with
  | nil =>
    have hp := placed_append h hrow hfree
    exact ⟨_, by simp only [place, IdSet.popLeast?, hfree], hp⟩
  | cons slot rest =>
    obtain ⟨t, ht, hp⟩ := placed_recycle h hrow hfree
    exact ⟨t, by simpa only [place, IdSet.popLeast?, hfree] using ht, hp⟩

/-- The next slot is a dead one or the first behind all others. -/
theorem Coherent.nextSlot_le (h : Coherent s) : s.nextSlot ≤ s.physical := by
  unfold nextSlot
  cases hfree : s.free.members with
  | nil => exact Nat.le_refl _
  | cons slot rest =>
    have hdead := (h.mem_free_iff slot).mp (hfree ▸ List.mem_cons_self)
    exact (h.lt_physical_of_deleted hdead).le

theorem Coherent.mem_free_tail_iff (h : Coherent s) (slot : Nat) :
    slot ∈ s.free.members.tail ↔ s.isDeleted slot = true ∧ slot ≠ s.nextSlot := by
  rw [← h.mem_free_iff, nextSlot]
  cases hfree : s.free.members with
  | nil => simp
  | cons least rest =>
    have hleast := (List.pairwise_cons.mp (hfree ▸ h.free_sorted)).1
    simp only [List.tail_cons, List.headD_cons, List.mem_cons]
    constructor
    · intro hm
      exact ⟨Or.inr hm, Nat.ne_of_gt (hleast slot hm)⟩
    · rintro ⟨hm, hne⟩
      exact hm.resolve_left hne

namespace Placed

theorem dimension_eq (p : Placed s row t) : t.dimension = s.dimension := by
  rw [dimension, p.codec_eq, dimension]

/-- The label maps stay inverse to each other: the retired label was in the slot that is
overwritten, and the new label was nowhere. -/
theorem slotOf?_iff (h : Coherent s) (p : Placed s row t) (label slot : Nat) :
    t.slotOf? label = some slot ↔ t.labelOf? slot = some label := by
  rw [p.slotOf?_eq, p.labelOf?_eq]
  have hinv := h.slotOf?_iff label
  by_cases hnew : label = s.nextLabel
  · have hfresh : s.labelOf? slot ≠ some label := fun hl =>
      absurd (h.label_lt slot label hl) (by omega)
    by_cases hslot : slot = s.nextSlot
    · simp [hnew, hslot]
    · simp [hnew ▸ hfresh, hnew, hslot, Ne.symm hslot]
  · by_cases hslot : slot = s.nextSlot
    · subst slot
      simp only [hnew, ↓reduceIte, Option.some.injEq, Ne.symm hnew, iff_false]
      split
      · simp
      · exact mt (hinv s.nextSlot).mp ‹_›
    · simp only [hnew, hslot, ↓reduceIte]
      split
      · have hold := (hinv s.nextSlot).mpr ‹_›
        rw [← hinv, hold]
        simp [Ne.symm hslot]
      · exact hinv slot

theorem coherent (h : Coherent s) (p : Placed s row t) : Coherent t where
  dimension_pos := p.dimension_eq ▸ h.dimension_pos
  codeLength_pos := p.codec_eq ▸ h.codeLength_pos
  codes_length := p.codec_eq ▸ p.codes_length
  tombstones_sound := p.tombstones_sound
  tombstones_length := p.tombstones_length
  free_sorted := p.free_eq ▸ h.free_sorted.tail
  mem_free_iff slot := by simp [p.free_eq, h.mem_free_tail_iff, p.isDeleted_eq]
  pending_eq := by rw [p.pending_eq, h.pending_eq, IdSet.size, IdSet.size, p.free_eq, List.length_tail]
  slotOf?_iff := p.slotOf?_iff h
  label_lt slot label hl := by
    rw [p.labelOf?_eq] at hl
    rw [p.nextLabel_eq]
    split at hl
    · cases hl; exact Nat.lt_succ_self _
    · exact (h.label_lt slot label hl).trans (Nat.lt_succ_self _)
  physical_le := by
    have hslot := h.nextSlot_le
    have hle := h.physical_le
    rw [p.physical_eq, p.nextLabel_eq]
    omega

end Placed

inductive PlacedAll : Store α → List (List Single) → Store α → Prop where
  | nil (s : Store α) : PlacedAll s [] s
  | cons {s t u : Store α} {row : List Single} {rows : List (List Single)}
      (first : Placed s row t) (others : PlacedAll t rows u) : PlacedAll s (row :: rows) u

theorem PlacedAll.coherent (h : Coherent s) (p : PlacedAll s rows t) : Coherent t := by
  induction p with
  | nil => exact h
  | cons first _ ih => exact ih (first.coherent h)

theorem PlacedAll.memory_eq (p : PlacedAll s rows t) : t.memory = s.memory := by
  induction p with
  | nil => rfl
  | cons first _ ih => exact ih.trans first.memory_eq

theorem PlacedAll.codec_eq (p : PlacedAll s rows t) : t.codec = s.codec := by
  induction p with
  | nil => rfl
  | cons first _ ih => exact ih.trans first.codec_eq

theorem PlacedAll.metric_eq (p : PlacedAll s rows t) : t.metric = s.metric := by
  induction p with
  | nil => rfl
  | cons first _ ih => exact ih.trans first.metric_eq

theorem PlacedAll.nextLabel_eq (p : PlacedAll s rows t) :
    t.nextLabel = s.nextLabel + rows.length := by
  induction p with
  | nil => rfl
  | cons first _ ih =>
    rw [ih, first.nextLabel_eq, List.length_cons]
    omega

/-- Placing rows of the right length never fails, and the labels are handed out in order. -/
theorem placeAll_eq (h : Coherent s) (hrows : ∀ row ∈ rows, row.length = s.dimension) :
    ∃ t, s.placeAll rows = .ok (List.range' s.nextLabel rows.length, t) ∧ PlacedAll s rows t := by
  induction rows generalizing s with
  | nil => exact ⟨s, rfl, .nil s⟩
  | cons row rows ih =>
    obtain ⟨t, hplace, hp⟩ := place_eq h (hrows row List.mem_cons_self)
    obtain ⟨u, hall, hps⟩ := ih (hp.coherent h) fun other ho => by
      rw [hp.dimension_eq]
      exact hrows other (List.mem_cons_of_mem row ho)
    refine ⟨u, ?_, .cons hp hps⟩
    rw [hp.nextLabel_eq] at hall
    simp only [placeAll, hplace, hall, bind, Except.bind, List.length_cons, List.range'_succ]
    rfl

def addFault? (s : Store α) (x : List Single) : Option IndexError :=
  let count := x.length / s.dimension
  if !s.codec.isTrained then some .notTrained
  else if x.length % s.dimension ≠ 0 then
    some (.dimensionMismatch s.dimension (x.length % s.dimension))
  else if count = 0 then none
  else (s.roomFault? count).map (.capacityExhausted count)

/-- All checks come before the first row is placed. -/
theorem add_eq (s : Store α) (x : List Single) :
    s.add x = match s.addFault? x with
      | some e => .error e
      | none => s.placeAll (Rows.split s.dimension x) := by
  have hlen := Rows.length_split s.dimension x
  unfold add addFault?
  by_cases htrained : s.codec.isTrained = true
  · by_cases hrest : x.length % s.dimension = 0
    · cases hrows : Rows.split s.dimension x with
      | nil =>
        rw [hrows] at hlen
        simp [htrained, hrest, ← hlen, placeAll, pure, Except.pure]
      | cons row rows =>
        have hcount : x.length / s.dimension = rows.length + 1 := by rw [← hlen, hrows]; rfl
        cases hfault : s.roomFault? (rows.length + 1) <;>
          simp [htrained, hrest, hcount, reserve, hfault, bind, Except.bind]
    · simp [htrained, hrest, bind, Except.bind, throw, throwThe, MonadExceptOf.throw]
  · simp [htrained, bind, Except.bind, throw, throwThe, MonadExceptOf.throw]

theorem add_eq_placeAll {x : List Single} (hx : s.addFault? x = none) :
    s.add x = s.placeAll (Rows.split s.dimension x) := by rw [add_eq, hx]

theorem add_eq_ok (h : Coherent s) {x : List Single} (hx : s.addFault? x = none) :
    ∃ t, s.add x = .ok (List.range' s.nextLabel (x.length / s.dimension), t) ∧
      PlacedAll s (Rows.split s.dimension x) t := by
  obtain ⟨t, ht, hp⟩ := placeAll_eq h fun row hrow => Rows.length_of_mem_split hrow
  rw [Rows.length_split] at ht
  exact ⟨t, (add_eq_placeAll hx).trans ht, hp⟩

theorem reserve_eq_ok_iff {additional : Nat} :
    s.reserve additional = .ok () ↔ s.roomFault? additional = none := by
  unfold reserve
  cases s.roomFault? additional <;> simp

/-- Whole vectors can be inserted when the room that they ask for is granted. -/
theorem addFault?_of_reserve (hd : 0 < s.dimension) (htrained : s.codec.isTrained = true)
    {x : List Single} {n : Nat} (hx : x.length = n * s.dimension)
    (hroom : 0 < n → s.reserve n = .ok ()) : s.addFault? x = none := by
  have hrest : x.length % s.dimension = 0 := by rw [hx, Nat.mul_mod_left]
  have hcount : x.length / s.dimension = n := by rw [hx, Nat.mul_div_cancel _ hd]
  rw [addFault?, if_neg (by simp [htrained]), if_neg (not_not_intro hrest), hcount]
  by_cases hn : n = 0
  · rw [if_pos hn]
  · rw [if_neg hn, reserve_eq_ok_iff.mp (hroom (Nat.pos_of_ne_zero hn))]
    rfl

/-- Whatever an insertion answers, it handed out the next labels and placed the rows in order. -/
theorem placedAll_of_add (h : Coherent s) {x : List Single} {labels : List Nat}
    (hadd : s.add x = .ok (labels, t)) :
    labels = List.range' s.nextLabel (x.length / s.dimension) ∧
      PlacedAll s (Rows.split s.dimension x) t := by
  cases hx : s.addFault? x with
  | some e => rw [add_eq, hx] at hadd; cases hadd
  | none =>
    obtain ⟨u, hu, hp⟩ := add_eq_ok h hx
    cases hu.symm.trans hadd
    exact ⟨rfl, hp⟩

end ExactNeighbors.Store
