import ExactNeighbors.Proofs.Store.Run

/-! # Deletion is all or nothing

A deletion is refused for the first label that there is an objection to, and succeeds when there is
none to any. Two labels stand for one slot only when they are the same label, so that looking for
repeated slots finds exactly the repeated labels. The tombstones are set one by one; since every
slot was looked at before, this is never given up halfway.
-/
namespace ExactNeighbors.Store

variable {α : Type} {s t : Store α} {label slot i : Nat} {labels earlier slots named : List Nat}
variable {e e' : IndexError}

/-- What speaks against the label at position `i`: it resolves to nothing, to a dead slot, or to
the slot of a label before it. -/
inductive Objection (s : Store α) (labels : List Nat) (i : Nat) : IndexError → Prop where
  | unknown (label : Nat) (here : labels[i]? = some label) (unresolved : s.slotOf? label = none) :
      Objection s labels i (.labelNotFound label)
  | dead (label slot : Nat) (here : labels[i]? = some label)
      (resolves : s.slotOf? label = some slot) (deleted : s.isDeleted slot = true) :
      Objection s labels i (.alreadyDeleted label slot)
  | named (label slot j before : Nat) (here : labels[i]? = some label)
      (resolves : s.slotOf? label = some slot) (earlier : j < i)
      (there : labels[j]? = some before) (same : s.slotOf? before = some slot) :
      Objection s labels i (.alreadyDeleted label slot)

theorem objection_iff (h : Coherent s) : Objection s labels i e ↔
    ∃ label, labels[i]? = some label ∧ s.refusal? (labels.take i) label = some e := by
  constructor
  · intro objection
    cases objection with
    | unknown label here unresolved => exact ⟨label, here, by rw [refusal?, unresolved]⟩
    | dead label slot here resolves deleted =>
      refine ⟨label, here, ?_⟩
      rw [refusal?, resolves]
      exact if_pos (Or.inl deleted)
    | named label slot j before here resolves earlier there same =>
      have hbefore : (labels.take i)[j]? = some label := by
        rw [List.getElem?_take_of_lt earlier, there, h.label_unique same resolves]
      refine ⟨label, here, ?_⟩
      rw [refusal?, resolves]
      exact if_pos (Or.inr (List.mem_of_getElem? hbefore))
  · rintro ⟨label, here, he⟩
    unfold refusal? at he
    cases hs : s.slotOf? label with
    | none =>
      rw [hs] at he
      cases he
      exact .unknown label here hs
    | some slot =>
      rw [hs] at he
      dsimp only at he
      split at he
      · rename_i hd
        cases he
        rcases hd with hdead | hm
        · exact .dead label slot here hs hdead
        · obtain ⟨j, hj, there⟩ := List.mem_take_iff_getElem.mp hm
          exact .named label slot j label here hs (by omega)
            (List.getElem?_eq_some_iff.mpr ⟨by omega, there⟩) hs
      · cases he

theorem Objection.unique (h : Coherent s) (first : Objection s labels i e)
    (second : Objection s labels i e') : e = e' := by
  obtain ⟨label, here, he⟩ := (objection_iff h).mp first
  obtain ⟨other, here', he'⟩ := (objection_iff h).mp second
  cases here.symm.trans here'
  exact Option.some.inj (he.symm.trans he')

/-- There is no objection to labels that can be deleted together, whatever comes behind them. -/
theorem Deletable.not_objection (h : Coherent s) (hd : s.Deletable earlier)
    (hi : i < earlier.length) (rest : List Nat) : ¬ Objection s (earlier ++ rest) i e := by
  intro objection
  obtain ⟨label, here, he⟩ := (objection_iff h).mp objection
  rw [List.getElem?_append_left hi] at here
  rw [List.take_append_of_le_length hi.le] at he
  have hfirst : s.Deletable (earlier.take (i + 1)) :=
    ⟨hd.nodup.sublist (List.take_sublist _ _), fun other ho => hd.live other (List.mem_of_mem_take ho)⟩
  rw [List.take_add_one, here] at hfirst
  obtain ⟨-, hlive, hnew⟩ := hfirst.of_concat
  rw [refusal?_eq_none_iff.mpr ⟨hlive, hnew⟩] at he
  cases he

theorem objection_of_refusal? (h : Coherent s) (he : s.refusal? earlier label = some e)
    (rest : List Nat) : Objection s (earlier ++ label :: rest) earlier.length e := by
  refine (objection_iff h).mpr ⟨label, by simp, ?_⟩
  rw [List.take_left]
  exact he

/-- The error is the one for the first position with an objection. -/
theorem markDeleted_eq_error_iff (h : Coherent s) : s.markDeleted labels = .error e ↔
    ∃ i, Objection s labels i e ∧ ∀ j < i, ∀ e', ¬ Objection s labels j e' := by
  rcases s.deletable_or_refused labels with hd | ⟨earlier, label, rest, e', rfl, hd, he⟩
  · obtain ⟨t, ht, -⟩ := markDeleted_eq_ok h hd
    rw [ht]
    constructor
    · intro herror
      cases herror
    · rintro ⟨i, objection, -⟩
      obtain ⟨label, here, -⟩ := (objection_iff h).mp objection
      obtain ⟨hi, -⟩ := List.getElem?_eq_some_iff.mp here
      exact absurd (labels.append_nil ▸ objection) (hd.not_objection h hi [])
  · have first := objection_of_refusal? h he rest
    rw [markDeleted_eq_error h hd he, Except.error.injEq]
    constructor
    · rintro rfl
      exact ⟨earlier.length, first, fun j hj _ => hd.not_objection h hj _⟩
    · rintro ⟨i, objection, hnone⟩
      rcases Nat.lt_trichotomy i earlier.length with hlt | rfl | hgt
      · exact absurd objection (hd.not_objection h hlt _)
      · exact first.unique h objection
      · exact absurd first (hnone _ hgt _)

theorem exists_markDeleted_iff (h : Coherent s) :
    (∃ count t, s.markDeleted labels = .ok (count, t)) ↔ s.Deletable labels := by
  constructor
  · rintro ⟨count, t, hmark⟩
    exact (buried_of_markDeleted h hmark).1
  · intro hd
    obtain ⟨t, ht, -⟩ := markDeleted_eq_ok h hd
    exact ⟨_, t, ht⟩

/-- Marks slots dead one after the other. At a slot that the bitmap does not have this ends, and
the slots before it stay dead. -/
def buryEach (s : Store α) : List Nat → Except IndexError Unit × Store α
  | [] => (.ok (), s)
  | slot :: slots =>
    if slot < s.tombstones.length then (s.bury slot).buryEach slots else (.error .overrun, s)

/-- A deletion that writes to the store while it goes along: the answer and the store that is left
behind, also by a deletion that fails. -/
def deleteInPlace (s : Store α) (labels : List Nat) : Except IndexError Nat × Store α :=
  match s.deletable [] labels with
  | .error e => (.error e, s)
  | .ok slots =>
    match s.buryEach slots with
    | (.ok (), t) => (.ok t.pending, t)
    | (.error e, t) => (.error e, t)

theorem buryEach_eq (hslots : ∀ slot ∈ slots, slot < s.tombstones.length) :
    s.buryEach slots = (.ok (), slots.foldl bury s) := by
  induction slots generalizing s with
  | nil => rfl
  | cons slot slots ih =>
    rw [buryEach, if_pos (hslots slot List.mem_cons_self)]
    exact ih fun other ho => hslots other (List.mem_cons_of_mem slot ho)

theorem resolved_of_deletable (hcheck : s.deletable named labels = .ok slots) :
    ∀ slot ∈ slots, ∃ label, s.slotOf? label = some slot := by
  induction labels generalizing named slots with
  | nil =>
    cases hcheck
    simp
  | cons label labels ih =>
    rw [deletable_cons] at hcheck
    cases hs : s.slotOf? label with
    | none => simp [hs] at hcheck
    | some place =>
      simp only [hs] at hcheck
      split at hcheck
      · cases hcheck
      · cases hrest : s.deletable (place :: named) labels with
        | error e =>
          rw [hrest] at hcheck
          cases hcheck
        | ok others =>
          rw [hrest] at hcheck
          cases hcheck
          intro slot hm
          rcases List.mem_cons.mp hm with rfl | hm
          · exact ⟨label, hs⟩
          · exact ih hrest slot hm

/-- A deletion in place ends in the new store or, with an error, in the store that it began with. -/
theorem deleteInPlace_eq (h : Coherent s) (labels : List Nat) :
    s.deleteInPlace labels = match s.markDeleted labels with
      | .ok (count, t) => (.ok count, t)
      | .error e => (.error e, s) := by
  unfold deleteInPlace markDeleted
  cases hcheck : s.deletable [] labels with
  | error e => rfl
  | ok slots =>
    have hslots : ∀ slot ∈ slots, slot < s.tombstones.length := by
      intro slot hm
      obtain ⟨label, hs⟩ := resolved_of_deletable hcheck slot hm
      rw [h.tombstones_length]
      exact h.lt_physical_of_slotOf? hs
    have hroom : slots.all (· < s.tombstones.length) = true :=
      List.all_eq_true.mpr fun slot hm => decide_eq_true (hslots slot hm)
    simp only [bind, Except.bind, hroom, buryEach_eq hslots]
    rfl

/-- A deletion succeeds exactly when every label is live and none is named twice. Then the slots of
the labels become dead and free, no other slot does, and nothing else is written. Otherwise nothing
at all is written, and the error is about the first position to which there is an objection. -/
theorem deletion_exact {memory : Memory} {codec : Codec α} {metric : Metric} {s₀ : Store α}
    (hnew : Store.new memory codec metric = .ok s₀) (calls : List Call) (labels : List Nat) :
    let s := s₀.run calls
    ((∃ count t, s.markDeleted labels = .ok (count, t)) ↔
      (∀ label ∈ labels, ∃ slot, s.slotOf? label = some slot ∧ s.isDeleted slot = false) ∧
        labels.Nodup) ∧
    (∀ count t, s.markDeleted labels = .ok (count, t) →
      s.deleteInPlace labels = (.ok count, t) ∧ s.after (.delete labels) = t ∧
      count = s.pending + labels.length ∧ t.pending = count ∧
      t.codec = s.codec ∧ t.metric = s.metric ∧ t.codes = s.codes ∧ t.labels = s.labels ∧
      t.slots = s.slots ∧ t.nextLabel = s.nextLabel ∧
      (∀ slot, t.isDeleted slot = true ↔
        s.isDeleted slot = true ∨ ∃ label ∈ labels, s.slotOf? label = some slot) ∧
      (∀ slot, slot ∈ t.free.members ↔
        slot ∈ s.free.members ∨ ∃ label ∈ labels, s.slotOf? label = some slot)) ∧
    (∀ e, s.markDeleted labels = .error e →
      s.deleteInPlace labels = (.error e, s) ∧ s.after (.delete labels) = s) ∧
    (∀ e, s.markDeleted labels = .error e ↔
      ∃ i, Objection s labels i e ∧ ∀ j < i, ∀ e', ¬ Objection s labels j e') := by
  intro s
  have h : Coherent s := ((coherent_of_new hnew).run calls).1
  have hplace := deleteInPlace_eq h labels
  refine ⟨?_, ?_, ?_, fun e => markDeleted_eq_error_iff h⟩
  · rw [exists_markDeleted_iff h]
    exact ⟨fun hd => ⟨hd.live, hd.nodup⟩, fun hd => ⟨hd.2, hd.1⟩⟩
  · intro count t hmark
    obtain ⟨-, ht, b⟩ := buried_of_markDeleted h hmark
    have hcount := count_of_markDeleted h hmark
    rw [hmark] at hplace
    refine ⟨hplace, by rw [after, hmark], hcount, b.pending_eq.trans hcount.symm, b.codec_eq,
      b.metric_eq, b.codes_eq, b.labels_eq, b.slots_eq, b.nextLabel_eq, b.isDeleted_iff, ?_⟩
    intro slot
    rw [ht.mem_free_iff, h.mem_free_iff, b.isDeleted_iff]
  · intro e hmark
    rw [hmark] at hplace
    exact ⟨hplace, by rw [after, hmark]⟩

/-- Label 1 is dead. It stops one call at position 1, a repeated label stops another at position 2,
and the labels 2 and 0 are deleted when they come alone. -/
theorem deletion_exact_refused :
    let s₀ : Store Single := { memory := .host, codec := Codec.flat 1, metric := .l2 }
    let calls : List Call := [.add [⟨1⟩, ⟨2⟩, ⟨3⟩], .delete [1]]
    let s := s₀.run calls
    Store.new .host (Codec.flat 1) .l2 = .ok s₀ ∧
      s.deleteInPlace [2, 1, 7] = (.error (.alreadyDeleted 1 1), s) ∧
      s.deleteInPlace [2, 0, 2, 7] = (.error (.alreadyDeleted 2 2), s) ∧
      (∃ i, Objection s [2, 0, 2, 7] i (.alreadyDeleted 2 2) ∧
        ∀ j < i, ∀ e', ¬ Objection s [2, 0, 2, 7] j e') ∧
      ∃ count t, s.markDeleted [2, 0] = .ok (count, t) ∧ count = 3 ∧ t.isDeleted 0 = true ∧
        t.codes = s.codes := by
  intro s₀ calls s
  have hnew : Store.new .host (Codec.flat 1) .l2 = .ok s₀ := rfl
  have hdead : s.markDeleted [2, 1, 7] = .error (.alreadyDeleted 1 1) := by
    dsimp only [s, calls, s₀]
    rfl
  have htwice : s.markDeleted [2, 0, 2, 7] = .error (.alreadyDeleted 2 2) := by
    dsimp only [s, calls, s₀]
    rfl
  have hlive : ∀ label ∈ [2, 0], s.Live label := by decide
  obtain ⟨hok, hdone, -⟩ := deletion_exact hnew calls [2, 0]
  obtain ⟨-, -, hkept, -⟩ := deletion_exact hnew calls [2, 1, 7]
  obtain ⟨-, -, hkept', hfirst⟩ := deletion_exact hnew calls [2, 0, 2, 7]
  obtain ⟨count, t, hmark⟩ := hok.mpr ⟨hlive, by decide⟩
  obtain ⟨-, -, hcount, -, -, -, hcodes, -, -, -, hdeleted, -⟩ := hdone count t hmark
  exact ⟨hnew, (hkept _ hdead).1, (hkept' _ htwice).1, (hfirst _).mp htwice, count, t, hmark,
    hcount.trans (by decide), (hdeleted 0).mpr (Or.inr ⟨0, by decide, by decide⟩), hcodes⟩

end ExactNeighbors.Store
