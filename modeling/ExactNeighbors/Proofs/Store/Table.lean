import ExactNeighbors.Store.Table
import ExactNeighbors.Proofs.Store.Read
import ExactNeighbors.Proofs.Store.Run

/-! # Stores stand for plain tables

The entry of a slot has the label in the slot, the code there and the tombstone. Read in this way,
a call on a store is the same call on its table: the least free slot is the first dead entry, and
the slot of a label is the place of the only entry that carries it.
-/
namespace ExactNeighbors

namespace SlotTable

variable {α : Type} {t : SlotTable α} {label slot : Nat}

theorem getElem?_placeIn (e : Entry α) (xs : List (Entry α)) (i : Nat) :
    (placeIn e xs)[i]? = if i = xs.findIdx (·.dead) then some e else xs[i]? := by
  induction xs generalizing i with
  | nil =>
    cases i with
    | zero => rfl
    | succ i => rfl
  | cons x xs ih =>
    rw [placeIn, List.findIdx_cons]
    cases hx : x.dead with
    | true =>
      cases i with
      | zero => rfl
      | succ i => rfl
    | false =>
      cases i with
      | zero => rfl
      | succ i =>
        rw [if_neg (by decide), List.getElem?_cons_succ, List.getElem?_cons_succ, ih]
        simp only [cond_false, Nat.add_right_cancel_iff]

def reconstructSlot (t : SlotTable α) (slot : Nat) : Except IndexError (List Single) :=
  match t.entries[slot]? with
  | some e =>
    if 4 * t.codec.dimension ≤ Word.longestBuffer then .ok (t.codec.decode e.code)
    else .error .overrun
  | none => .error (.outOfBounds slot 1 t.entries.length)

def reconstruct (t : SlotTable α) (label : Nat) : Except IndexError (List Single) :=
  match t.slotOf? label with
  | some slot => t.reconstructSlot slot
  | none => .error (.labelNotFound label)

end SlotTable

namespace Store

variable {α : Type} {s t u : Store α} {label slot : Nat} {labels : List Nat}
variable {row : List Single} {rows : List (List Single)}

def table (s : Store α) : SlotTable α where
  codec := s.codec
  entries := s.labels.mapIdx fun slot label => ⟨label, s.codeOf slot, s.isDeleted slot⟩
  nextLabel := s.nextLabel

theorem length_entries_table (s : Store α) : s.table.entries.length = s.physical :=
  List.length_mapIdx

theorem getElem?_entries_table (s : Store α) (slot : Nat) :
    s.table.entries[slot]? =
      (s.labelOf? slot).map fun label => ⟨label, s.codeOf slot, s.isDeleted slot⟩ :=
  List.getElem?_mapIdx

theorem getElem_entries_table (hs : slot < s.table.entries.length) :
    s.table.entries[slot].dead = s.isDeleted slot ∧
      s.labelOf? slot = some s.table.entries[slot].label := by
  have hget := s.getElem?_entries_table slot
  rw [List.getElem?_eq_getElem hs] at hget
  obtain ⟨label, hl, he⟩ := Option.map_eq_some_iff.mp hget.symm
  rw [← he]
  exact ⟨rfl, hl⟩

/-- A table is that of a store when it agrees with the store slot by slot. -/
theorem eq_table {v : SlotTable α} (hcodec : v.codec = s.codec) (hnext : v.nextLabel = s.nextLabel)
    (hentries : ∀ slot, v.entries[slot]? =
      (s.labelOf? slot).map fun label => ⟨label, s.codeOf slot, s.isDeleted slot⟩) :
    v = s.table := by
  obtain ⟨codec, entries, nextLabel⟩ := v
  cases hcodec
  cases hnext
  congr 1
  apply List.ext_getElem?
  intro slot
  rw [hentries]
  exact (getElem?_entries_table s slot).symm

theorem labelOf?_table (s : Store α) (slot : Nat) : s.table.labelOf? slot = s.labelOf? slot := by
  rw [SlotTable.labelOf?, getElem?_entries_table, Option.map_map]
  exact Option.map_id'

theorem isDeleted_table (h : Coherent s) (slot : Nat) :
    s.table.isDeleted slot = s.isDeleted slot := by
  rw [SlotTable.isDeleted, getElem?_entries_table]
  cases hl : s.labelOf? slot with
  | some label => rfl
  | none =>
    have hge := labelOf?_eq_none_iff.mp hl
    cases hd : s.isDeleted slot with
    | false => rfl
    | true => exact absurd (h.lt_physical_of_deleted hd) (Nat.not_lt.mpr hge)

theorem slotOf?_table (h : Coherent s) (label : Nat) : s.table.slotOf? label = s.slotOf? label := by
  rw [SlotTable.slotOf?]
  cases hs : s.slotOf? label with
  | none =>
    rw [List.findIdx?_eq_none_iff]
    intro e he
    obtain ⟨slot, hslot, rfl⟩ := List.mem_iff_getElem.mp he
    have hl := (h.slotOf?_iff _ slot).mpr (getElem_entries_table hslot).2
    rw [decide_eq_false_iff_not]
    intro heq
    rw [heq, hs] at hl
    cases hl
  | some slot =>
    rw [List.findIdx?_eq_some_iff_getElem]
    have hslot : slot < s.table.entries.length := by
      rw [length_entries_table]
      exact h.lt_physical_of_slotOf? hs
    have hl := (h.slotOf?_iff label slot).mp hs
    refine ⟨hslot, ?_, ?_⟩
    · rw [(getElem_entries_table hslot).2] at hl
      exact decide_eq_true (Option.some.inj hl)
    · intro j hj heq
      have hjl := (getElem_entries_table (hj.trans hslot)).2
      rw [of_decide_eq_true heq] at hjl
      have hjs := (h.slotOf?_iff label j).mpr hjl
      rw [hs] at hjs
      exact Nat.ne_of_gt hj (Option.some.inj hjs)

/-- The first dead entry is in the least free slot. -/
theorem findIdx_dead_table (h : Coherent s) :
    s.table.entries.findIdx (·.dead) = s.nextSlot := by
  unfold nextSlot
  cases hfree : s.free.members with
  | nil =>
    rw [List.headD_nil, ← length_entries_table, List.findIdx_eq_length]
    intro e he
    obtain ⟨slot, hslot, rfl⟩ := List.mem_iff_getElem.mp he
    have halive := mt (h.mem_free_iff slot).mpr (by rw [hfree]; exact List.not_mem_nil)
    rw [(getElem_entries_table hslot).1]
    exact Bool.eq_false_iff.mpr halive
  | cons least rest =>
    have hdead := (h.mem_free_iff least).mp (hfree ▸ List.mem_cons_self)
    have hleast := (List.pairwise_cons.mp (hfree ▸ h.free_sorted)).1
    have hslot : least < s.table.entries.length := by
      rw [length_entries_table]
      exact h.lt_physical_of_deleted hdead
    rw [List.headD_cons, List.findIdx_eq hslot]
    refine ⟨(getElem_entries_table hslot).1.trans hdead, ?_⟩
    intro j hj
    rw [(getElem_entries_table (hj.trans hslot)).1, Bool.eq_false_iff]
    intro hjdead
    rw [← h.mem_free_iff, hfree, List.mem_cons] at hjdead
    rcases hjdead with rfl | hm
    · exact Nat.lt_irrefl _ hj
    · exact Nat.lt_asymm hj (hleast j hm)

theorem Placed.table_eq (h : Coherent s) (p : Placed s row t) : s.table.place row = t.table := by
  apply eq_table p.codec_eq.symm p.nextLabel_eq.symm
  intro slot
  rw [SlotTable.place, SlotTable.getElem?_placeIn, findIdx_dead_table h, getElem?_entries_table,
    p.labelOf?_eq, p.codeOf_eq, p.isDeleted_eq]
  by_cases hslot : slot = s.nextSlot
  · simp [hslot, table]
  · simp [hslot]

theorem PlacedAll.table_eq (h : Coherent s) (p : PlacedAll s rows t) :
    rows.foldl SlotTable.place s.table = t.table := by
  induction p with
  | nil => rfl
  | cons first _ ih => rw [List.foldl_cons, first.table_eq h, ih (first.coherent h)]

/-- Want of room is the last of the reasons against an insertion. -/
theorem addFault?_eq_none {x : List Single} (htrained : s.codec.isTrained = true)
    (hrest : x.length % s.dimension = 0)
    (hroom : ∀ slots fault, s.add x ≠ .error (.capacityExhausted slots fault)) :
    s.addFault? x = none := by
  have hadd := add_eq s x
  rw [addFault?, if_neg (by simp [htrained]), if_neg (not_not_intro hrest)] at hadd ⊢
  split
  · rfl
  · rename_i hcount
    rw [if_neg hcount] at hadd
    cases hfault : s.roomFault? (x.length / s.dimension) with
    | none => rfl
    | some fault =>
      rw [hfault] at hadd
      exact absurd hadd (hroom _ fault)

/-- An insertion that is not refused for want of room. -/
theorem add_table (h : Coherent s) {x : List Single}
    (hroom : ∀ slots fault, s.add x ≠ .error (.capacityExhausted slots fault)) :
    s.table.add x = (s.add x).map fun (labels, t) => (labels, t.table) := by
  have htable : s.table.add x =
      if !s.codec.isTrained then .error .notTrained
      else if x.length % s.dimension ≠ 0 then
        .error (.dimensionMismatch s.dimension (x.length % s.dimension))
      else .ok ((List.range (Rows.split s.dimension x).length).map (s.nextLabel + ·),
        (Rows.split s.dimension x).foldl SlotTable.place s.table) := rfl
  by_cases htrained : s.codec.isTrained = true
  · by_cases hrest : x.length % s.dimension = 0
    · obtain ⟨t, ht, hp⟩ := add_eq_ok h (addFault?_eq_none htrained hrest hroom)
      rw [htable, if_neg (by simp [htrained]), if_neg (not_not_intro hrest), ht, hp.table_eq h,
        Rows.length_split, ← List.range'_eq_map_range]
      rfl
    · rw [htable, if_neg (by simp [htrained]), if_pos hrest, add_eq, addFault?,
        if_neg (by simp [htrained]), if_pos hrest]
      rfl
  · rw [htable, if_pos (by simp [htrained]), add_eq, addFault?, if_pos (by simp [htrained])]
    rfl

theorem bury_table (h : Coherent s) (label : Nat) :
    s.table.bury label = match s.slotOf? label with
      | none => .error (.labelNotFound label)
      | some slot =>
        if s.isDeleted slot then .error (.alreadyDeleted label slot)
        else .ok { s.table with
          entries := s.table.entries.modify slot fun e => { e with dead := true } } := by
  rw [SlotTable.bury, slotOf?_table h]
  cases s.slotOf? label with
  | none => rfl
  | some slot =>
    have hdead : s.table.entries[slot]?.any (·.dead) = s.isDeleted slot := isDeleted_table h slot
    dsimp only
    rw [hdead]

theorem bury_table_error (h : Coherent s) {e : IndexError} (he : s.refusal? [] label = some e) :
    s.table.bury label = .error e := by
  rw [bury_table h]
  unfold refusal? at he
  cases hs : s.slotOf? label with
  | none =>
    rw [hs] at he
    cases he
    rfl
  | some slot =>
    rw [hs] at he
    simp only [List.not_mem_nil, or_false] at he ⊢
    split at he
    · cases he
      exact if_pos ‹_›
    · cases he

/-- Whether a slot is dead after labels are deleted and one more. -/
theorem Buried.isDeleted_concat (b : Buried s labels t) (b' : Buried s (labels ++ [label]) u)
    (hs : s.slotOf? label = some slot) (other : Nat) :
    u.isDeleted other = (decide (slot = other) || t.isDeleted other) := by
  rw [Bool.eq_iff_iff, Bool.or_eq_true, b'.isDeleted_iff, b.isDeleted_iff, decide_eq_true_eq]
  simp only [List.mem_append, List.mem_singleton, or_and_right, exists_or, exists_eq_left, hs,
    Option.some.injEq]
  rw [← or_assoc, or_comm]

/-- Labels marked one by one. -/
theorem foldlM_bury_table (h : Coherent s) (hd : s.Deletable labels) (b : Buried s labels t) :
    labels.foldlM SlotTable.bury s.table = .ok t.table := by
  -- From the right: what a label meets are the tombstones of those before it.
  induction labels using List.reverseRecOn generalizing t with
  | nil =>
    refine congrArg Except.ok (eq_table b.codec_eq.symm b.nextLabel_eq.symm fun slot => ?_)
    have hdead : t.isDeleted slot = s.isDeleted slot := by
      rw [Bool.eq_iff_iff, b.isDeleted_iff]
      simp
    rw [getElem?_entries_table, b.labelOf?_eq, b.codeOf_eq, hdead]
  | append_singleton labels label ih =>
    obtain ⟨hd, hlive, hnew⟩ := hd.of_concat
    obtain ⟨u, -, hu, bu⟩ := markDeleted_eq_ok h hd
    obtain ⟨slot, hslot, halive⟩ := (bu.live_iff h).mpr ⟨hlive, hnew⟩
    have hs : s.slotOf? label = some slot := (bu.slotOf?_eq label).symm.trans hslot
    have hbury := bury_table hu label
    simp only [hslot, halive, Bool.false_eq_true, ↓reduceIte] at hbury
    rw [List.foldlM_append, ih hd bu]
    change (u.table.bury label >>= pure) = _
    rw [bind_pure, hbury]
    congr 1
    apply eq_table (bu.codec_eq.trans b.codec_eq.symm) (bu.nextLabel_eq.trans b.nextLabel_eq.symm)
    intro other
    rw [List.getElem?_modify, getElem?_entries_table, b.labelOf?_eq, b.codeOf_eq,
      bu.isDeleted_concat b hs, bu.labelOf?_eq, bu.codeOf_eq]
    cases s.labelOf? other with
    | none => rfl
    | some label => by_cases hother : slot = other <;> simp [hother]

/-- The label that is refused is refused by the table as the labels before it left it. -/
theorem foldlM_bury_table_error (h : Coherent s) {earlier rest : List Nat} {e : IndexError}
    (hd : s.Deletable earlier) (he : s.refusal? earlier label = some e) :
    (earlier ++ label :: rest).foldlM SlotTable.bury s.table = .error e := by
  obtain ⟨t, -, ht, b⟩ := markDeleted_eq_ok h hd
  have hbury : t.table.bury label = .error e := by
    apply bury_table_error ht
    rw [b.refusal?_eq h, List.append_nil, he]
  rw [List.foldlM_append, foldlM_bury_table h hd b]
  dsimp only [bind, Except.bind]
  rw [List.foldlM_cons, hbury]
  rfl

theorem map_dead_entries_table (s : Store α) :
    s.table.entries.map (·.dead) = (List.range s.physical).map s.isDeleted := by
  apply List.ext_getElem?
  intro slot
  rw [List.getElem?_map, getElem?_entries_table, Option.map_map, List.getElem?_map]
  rcases Nat.lt_or_ge slot s.physical with hlt | hge
  · rw [List.getElem?_range hlt, labelOf?, List.getElem?_eq_getElem hlt]
    rfl
  · rw [labelOf?_eq_none_iff.mpr hge, List.getElem?_eq_none (by simpa using hge)]
    rfl

theorem dead_table (h : Coherent s) : s.table.dead = s.pending := by
  have hcount := congrArg (List.countP id) s.map_dead_entries_table
  rw [List.countP_map, List.countP_map, List.countP_eq_length_filter (l := List.range _)] at hcount
  rw [h.pending_eq, IdSet.size, h.free_eq]
  exact hcount

theorem live_table (h : Coherent s) : s.table.live = s.live := by
  have hsum := List.length_eq_countP_add_countP (fun e : Entry α => e.dead) (l := s.table.entries)
  have hdead : s.table.entries.countP (fun e => e.dead) = s.pending := dead_table h
  rw [length_entries_table, hdead] at hsum
  simp only [Bool.not_eq_true, Bool.decide_eq_false] at hsum
  rw [live, hsum, Nat.add_sub_cancel_left]
  rfl

theorem free_table (h : Coherent s) : s.table.free = s.free.members := by
  rw [SlotTable.free, length_entries_table, h.free_eq]
  exact congrArg (List.filter · _) (funext (isDeleted_table h))

theorem reconstructSlot_table (h : Coherent s) (slot : Nat) :
    s.table.reconstructSlot slot = s.reconstructSlot slot := by
  rw [SlotTable.reconstructSlot, getElem?_entries_table, length_entries_table]
  rcases Nat.lt_or_ge slot s.physical with hlt | hge
  · rw [labelOf?, List.getElem?_eq_getElem hlt]
    change (if 4 * s.dimension ≤ Word.longestBuffer then _ else _) = _
    split
    · rw [h.reconstructSlot_eq ‹_› hlt]
      rfl
    · rw [h.reconstructSlot_eq_decodeAll hlt, decodeAll, Nat.one_mul]
      exact (if_neg ‹_›).symm
  · rw [labelOf?_eq_none_iff.mpr hge, reconstructSlot, reconstructRange, codesRange,
      if_neg Nat.one_ne_zero, if_neg (by omega)]
    rfl

theorem reconstruct_table (h : Coherent s) (label : Nat) :
    s.table.reconstruct label = s.reconstruct label := by
  rw [SlotTable.reconstruct, slotOf?_table h]
  cases hs : s.slotOf? label with
  | none =>
    rw [reconstruct, resolve, hs]
    rfl
  | some slot =>
    rw [reconstruct_eq hs]
    exact reconstructSlot_table h slot

theorem nodup_labels_table (h : Coherent s) : (s.table.entries.map (·.label)).Nodup := by
  have hlabels : s.table.entries.map (·.label) = s.labels := by
    apply List.ext_getElem?
    intro slot
    rw [List.getElem?_map, getElem?_entries_table, Option.map_map]
    exact Option.map_id'
  rw [hlabels, List.nodup_iff_getElem?_ne_getElem?]
  intro i j hij hj heq
  have hl : s.labelOf? j = some s.labels[j] := List.getElem?_eq_getElem hj
  have hjs := (h.slotOf?_iff _ j).mpr hl
  have his := (h.slotOf?_iff _ i).mpr (heq.trans hl)
  rw [hjs] at his
  exact Nat.ne_of_gt hij (Option.some.inj his)

theorem markDeleted_table (h : Coherent s) (labels : List Nat) :
    s.table.markDeleted labels =
      (s.markDeleted labels).map fun (pending, t) => (pending, t.table) := by
  rw [SlotTable.markDeleted]
  rcases s.deletable_or_refused labels with hd | ⟨earlier, label, rest, e, rfl, hd, he⟩
  · obtain ⟨t, hmark, ht, b⟩ := markDeleted_eq_ok h hd
    rw [foldlM_bury_table h hd b, hmark]
    dsimp only [bind, Except.bind, pure, Except.pure, Except.map]
    rw [dead_table ht, b.pending_eq]
  · rw [foldlM_bury_table_error h hd he, markDeleted_eq_error h hd he]
    rfl

end Store

inductive Answer where
  | labels (issued : List Nat)
  | pending (count : Nat)
  | done

def Store.answer (s : Store α) : Store.Call → Except IndexError Answer
  | .add x => (s.add x).map fun (labels, _) => .labels labels
  | .delete labels => (s.markDeleted labels).map fun (count, _) => .pending count
  | .reserve additional => (s.reserve additional).map fun _ => .done
  | .reset => .ok .done

namespace SlotTable

variable {α : Type}

/-- What a call on a table gives back. A table has room for everything. -/
def answer (t : SlotTable α) : Store.Call → Except IndexError Answer
  | .add x => (t.add x).map fun (labels, _) => .labels labels
  | .delete labels => (t.markDeleted labels).map fun (count, _) => .pending count
  | .reserve _ => .ok .done
  | .reset => .ok .done

def after (t : SlotTable α) : Store.Call → SlotTable α
  | .add x => match t.add x with
    | .ok (_, u) => u
    | .error _ => t
  | .delete labels => match t.markDeleted labels with
    | .ok (_, u) => u
    | .error _ => t
  | .reserve _ => t
  | .reset => t.reset

def run (t : SlotTable α) (calls : List Store.Call) : SlotTable α := calls.foldl after t

structure Describes (t : SlotTable α) (s : Store α) : Prop where
  labels_nodup : (t.entries.map (·.label)).Nodup
  physical_eq : s.physical = t.entries.length
  live_eq : s.live = t.live
  pending_eq : s.pending = t.dead
  nextLabel_eq : s.nextLabel = t.nextLabel
  free_eq : s.free.members = t.free
  labelOf?_eq : ∀ slot, s.labelOf? slot = t.labelOf? slot
  slotOf?_eq : ∀ label, s.slotOf? label = t.slotOf? label
  isDeleted_eq : ∀ slot, s.isDeleted slot = t.isDeleted slot
  reconstructSlot_eq : ∀ slot, s.reconstructSlot slot = t.reconstructSlot slot
  reconstruct_eq : ∀ label, s.reconstruct label = t.reconstruct label

end SlotTable

namespace Store

variable {α : Type} {s : Store α} {call : Call} {calls : List Call}

theorem describes_table (h : Coherent s) : s.table.Describes s where
  labels_nodup := nodup_labels_table h
  physical_eq := s.length_entries_table.symm
  live_eq := (live_table h).symm
  pending_eq := (dead_table h).symm
  nextLabel_eq := rfl
  free_eq := (free_table h).symm
  labelOf?_eq slot := (s.labelOf?_table slot).symm
  slotOf?_eq label := (slotOf?_table h label).symm
  isDeleted_eq slot := (isDeleted_table h slot).symm
  reconstructSlot_eq slot := (reconstructSlot_table h slot).symm
  reconstruct_eq label := (reconstruct_table h label).symm

/-- No reservation that a call makes fails. -/
def Roomy (s : Store α) (call : Call) : Prop :=
  ∀ slots fault, s.answer call ≠ .error (.capacityExhausted slots fault)

theorem roomy_iff : s.Roomy call ↔ (match s.answer call with
    | .error (.capacityExhausted _ _) => false
    | _ => true) = true := by
  unfold Roomy
  split
  · rename_i slots fault he
    exact ⟨fun hroom => absurd he (hroom slots fault), fun h => by cases h⟩
  · rename_i hne
    exact ⟨fun _ => rfl, fun _ => hne⟩

instance (s : Store α) (call : Call) : Decidable (s.Roomy call) := decidable_of_iff' _ roomy_iff

/-- One call on a store is the same call on its table. -/
theorem call_table (h : Coherent s) (hroom : s.Roomy call) :
    s.table.answer call = s.answer call ∧ s.table.after call = (s.after call).table := by
  cases call with
  | add x =>
    have hadd := add_table h (x := x) fun slots fault he => hroom slots fault (by rw [answer, he]; rfl)
    rw [SlotTable.answer, answer, SlotTable.after, after, hadd]
    cases s.add x with
    | error e => exact ⟨rfl, rfl⟩
    | ok result => exact ⟨rfl, rfl⟩
  | delete labels =>
    rw [SlotTable.answer, answer, SlotTable.after, after, markDeleted_table h]
    cases s.markDeleted labels with
    | error e => exact ⟨rfl, rfl⟩
    | ok result => exact ⟨rfl, rfl⟩
  | reserve additional =>
    refine ⟨?_, rfl⟩
    rw [SlotTable.answer, answer, reserve]
    cases hfault : s.roomFault? additional with
    | none => rfl
    | some fault => exact absurd (by rw [answer, reserve, hfault]; rfl) (hroom additional fault)
  | reset => exact ⟨rfl, rfl⟩

theorem run_table (h : Coherent s)
    (hroom : ∀ before call rest, calls = before ++ call :: rest → (s.run before).Roomy call) :
    s.table.run calls = (s.run calls).table := by
  induction calls generalizing s with
  | nil => rfl
  | cons call calls ih =>
    have hfirst := (call_table h (hroom [] call calls rfl)).2
    rw [run_cons, ← ih (h.after call).1, ← hfirst]
    · rfl
    · rintro before next rest rfl
      exact hroom (call :: before) next rest rfl

/-- Over any run in which no reservation fails, a store and a plain table of entries give the same
answers and the same errors, call by call, and after every call everything that can be read off
the store is what the table says. -/
theorem run_refines_table {memory : Memory} {codec : Codec α} {metric : Metric} {s₀ : Store α}
    (hnew : Store.new memory codec metric = .ok s₀) {calls : List Call}
    (hroom : ∀ before call rest, calls = before ++ call :: rest → (s₀.run before).Roomy call) :
    let t₀ : SlotTable α := { codec }
    (∀ before call rest, calls = before ++ call :: rest →
      (t₀.run before).answer call = (s₀.run before).answer call) ∧
    ∀ before rest, calls = before ++ rest → (t₀.run before).Describes (s₀.run before) := by
  intro t₀
  have h₀ := coherent_of_new hnew
  have ht₀ : s₀.table = t₀ := by
    obtain ⟨rfl, -⟩ := eq_of_new hnew
    rfl
  have hrun : ∀ before rest, calls = before ++ rest → t₀.run before = (s₀.run before).table := by
    rintro before rest rfl
    rw [← ht₀]
    apply run_table h₀
    rintro earlier call later rfl
    exact hroom earlier call (later ++ rest) (by simp)
  constructor
  · intro before call rest hcalls
    rw [hrun before (call :: rest) hcalls]
    exact (call_table (h₀.run before).1 (hroom before call rest hcalls)).1
  · intro before rest hcalls
    rw [hrun before rest hcalls]
    exact describes_table (h₀.run before).1

/-- The second deletion names a label twice, the fourth a label whose slot was reused in the middle
of an insertion. -/
theorem run_refines_table_recycled :
    let s₀ : Store Single := { memory := .host, codec := Codec.flat 1, metric := .l2 }
    let t₀ : SlotTable Single := { codec := Codec.flat 1 }
    let calls : List Call := [.add [⟨1⟩, ⟨2⟩, ⟨3⟩], .delete [2, 0, 2], .delete [2, 0], .reserve 2,
      .add [⟨4⟩, ⟨5⟩, ⟨6⟩], .delete [1, 0]]
    Store.new .host (Codec.flat 1) .l2 = .ok s₀ ∧
      (∀ before call rest, calls = before ++ call :: rest → (s₀.run before).Roomy call) ∧
      (s₀.run (calls.take 1)).answer (.delete [2, 0, 2]) = .error (.alreadyDeleted 2 2) ∧
      (s₀.run (calls.take 5)).answer (.delete [1, 0]) = .error (.labelNotFound 0) ∧
      (t₀.run calls).Describes (s₀.run calls) ∧
      (t₀.run calls).entries.map (·.label) = [3, 1, 4, 5] := by
  intro s₀ t₀ calls
  have hnew : Store.new .host (Codec.flat 1) .l2 = .ok s₀ := rfl
  have hroom : ∀ before call rest, calls = before ++ call :: rest →
      (s₀.run before).Roomy call := by
    have hall : ∀ i < 6, ∀ call ∈ calls[i]?, (s₀.run (calls.take i)).Roomy call := by decide
    intro before call rest hcalls
    have hlength := congrArg List.length hcalls
    have hlt : before.length < 6 := by
      rw [List.length_append, List.length_cons] at hlength
      simp only [List.length_cons, List.length_nil] at hlength
      omega
    have hroomy := hall before.length hlt call
    rw [hcalls] at hroomy
    simpa using hroomy
  obtain ⟨hanswers, hdescribes⟩ := run_refines_table hnew hroom
  refine ⟨hnew, hroom, ?_, ?_, hdescribes calls [] (List.append_nil calls).symm, by decide⟩
  · rw [← hanswers (calls.take 1) (.delete [2, 0, 2]) (calls.drop 2) rfl]
    rfl
  · rw [← hanswers (calls.take 5) (.delete [1, 0]) [] rfl]
    rfl

end Store
end ExactNeighbors
