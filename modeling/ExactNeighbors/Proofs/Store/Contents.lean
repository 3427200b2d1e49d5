import Mathlib.Data.Nat.Digits.Defs
import ExactNeighbors.Proofs.Store.Lifecycle
import ExactNeighbors.Proofs.Store.Room

/-! # What a label holds

The code that an insertion writes for a row stays in the row's slot for as long as the row's label
resolves. No step writes to a slot whose label it does not retire, so the argument follows the label
through the run and not the slot.
-/
namespace ExactNeighbors.Store

variable {α : Type} {s t : Store α} {label slot : Nat} {call : Call} {calls : List Call}
variable {row : List Single}

/-- A run has inserted a row under a label, and not been reset since. -/
def Inserted (s₀ : Store α) (calls : List Call) (row : List Single) (label : Nat) : Prop :=
  ∃ (before later : List Call) (x : List Single) (labels : List Nat) (t : Store α) (i : Nat),
    calls = before ++ .add x :: later ∧ .reset ∉ later ∧
    (s₀.run before).add x = .ok (labels, t) ∧
    (Rows.split s₀.dimension x)[i]? = some row ∧ labels[i]? = some label

structure Holds (s : Store α) (label slot : Nat) (code : List α) (vector : List Single) :
    Prop where
  code_eq : s.code slot = .ok code
  reconstruct_eq : s.reconstruct label = .ok vector
  reconstructSlot_eq : s.reconstructSlot slot = .ok vector

theorem codeOf_after (h : Coherent s) (hr : call ≠ .reset) (hs : s.slotOf? label = some slot)
    (ht : (s.after call).slotOf? label = some slot) :
    (s.after call).codeOf slot = s.codeOf slot := by
  cases h.effect call with
  | placed x labels t _ _ hafter _ _ _ hp =>
    subst hafter
    cases hp.moved h label with
    | issued unused => exact absurd (h.label_lt_of_slotOf? hs) (Nat.not_lt.mpr unused)
    | retired _ _ _ _ gone => rw [gone] at ht; cases ht
    | kept _ _ same_slot => exact (same_slot slot hs).2
  | buried labels pending t _ _ hafter _ _ _ _ hb => exact hafter ▸ hb.codeOf_eq slot
  | reset hreset => exact absurd hreset hr
  | idle hafter => rw [hafter]

theorem codeOf_run (h : Coherent s) (hr : .reset ∉ calls) (hs : s.slotOf? label = some slot)
    {place : Nat} (ht : (s.run calls).slotOf? label = some place) :
    (s.run calls).codeOf place = s.codeOf slot := by
  induction calls generalizing s with
  | nil => rw [Option.some.inj (ht.symm.trans hs), run_nil]
  | cons call calls ih =>
    obtain ⟨hcall, hcalls⟩ := not_or.mp (mt List.mem_cons.mpr hr)
    have hs' := slotOf?_after h hr hs ht
    rw [run_cons, ih (h.after call).1 hcalls hs' ht]
    exact codeOf_after h (Ne.symm hcall) hs hs'

theorem codeOf_inserted {s₀ : Store α} (h₀ : Coherent s₀) (hrow : Inserted s₀ calls row label)
    (hs : (s₀.run calls).slotOf? label = some slot) :
    (s₀.run calls).codeOf slot = s₀.codec.encode row := by
  obtain ⟨before, later, x, labels, t, i, rfl, hr, hadd, hi, hl⟩ := hrow
  obtain ⟨h, hcodec⟩ := h₀.run before
  obtain ⟨hlabels, hp⟩ := placedAll_of_add h hadd
  have hafter : (s₀.run before).after (.add x) = t := by rw [after, hadd]
  have hdim : (s₀.run before).dimension = s₀.dimension := by rw [dimension, hcodec, dimension]
  have hlabel : label = (s₀.run before).nextLabel + i := by
    rw [hlabels] at hl
    obtain ⟨hlt, he⟩ := List.getElem?_eq_some_iff.mp hl
    rw [← he, List.getElem_range', Nat.one_mul]
  obtain ⟨place, hplace, -, hcode⟩ := hp.placed_row h (hdim ▸ hi)
  rw [run_append, run_cons, hafter] at hs ⊢
  rw [codeOf_run (hp.coherent h) hr (hlabel ▸ hplace) hs, hcode, hcodec]

theorem Inserted.length_eq {s₀ : Store α} (hrow : Inserted s₀ calls row label) :
    row.length = s₀.dimension := by
  obtain ⟨before, later, x, labels, t, i, -, -, -, hi, -⟩ := hrow
  exact Rows.length_of_mem_split (List.mem_of_getElem? hi)

theorem holds_inserted {s₀ : Store α} (h₀ : Coherent s₀) (hrow : Inserted s₀ calls row label)
    (hs : (s₀.run calls).slotOf? label = some slot)
    (hroom : 4 * s₀.dimension ≤ Word.longestBuffer) :
    Holds (s₀.run calls) label slot (s₀.codec.encode row)
      (s₀.codec.decode (s₀.codec.encode row)) := by
  obtain ⟨h, hcodec⟩ := h₀.run calls
  have hlt := h.lt_physical_of_slotOf? hs
  have hcode := codeOf_inserted h₀ hrow hs
  have hslot := h.reconstructSlot_eq (by rw [dimension, hcodec]; exact hroom) hlt
  rw [hcodec, hcode] at hslot
  exact ⟨hcode ▸ h.code_eq hlt, (reconstruct_eq hs).trans hslot, hslot⟩

/-- The bytes of a component are its bits in base 256, least significant first. -/
theorem ofDigits_bytes (x : Single) :
    Nat.ofDigits 256 (x.bytes.map UInt8.toNat) = x.bits.toNat := by
  have hlt := x.bits.toNat_lt
  simp only [Single.bytes, List.map_cons, List.map_nil, Nat.ofDigits_cons, Nat.ofDigits_nil,
    UInt32.toNat_toUInt8, UInt32.toNat_shiftRight]
  simp [Nat.shiftRight_eq_div_pow]
  omega

/-- Whatever a run inserts, deletes or reuses after a row was inserted: while the row's label
resolves, its slot holds the row's encoding, and reading it by slot or by label gives the decoded
encoding, the row being one that a buffer can hold. With raw components this is the row itself, bit
for bit, and the bytes of the slot are those of the row, least significant first. -/
theorem contents_stable :
    (∀ (α : Type) (memory : Memory) (codec : Codec α) (metric : Metric) (s₀ : Store α)
      (calls : List Call) (row : List Single) (label slot : Nat),
      Store.new memory codec metric = .ok s₀ → Inserted s₀ calls row label →
      4 * row.length ≤ Word.longestBuffer →
      (s₀.run calls).slotOf? label = some slot →
      Holds (s₀.run calls) label slot (codec.encode row) (codec.decode (codec.encode row))) ∧
    (∀ (memory : Memory) (dimension : Nat) (metric : Metric) (s₀ : Store Single)
      (calls : List Call) (row : List Single) (label slot : Nat),
      Store.new memory (Codec.flat dimension) metric = .ok s₀ →
      Inserted s₀ calls row label → (s₀.run calls).slotOf? label = some slot →
      Holds (s₀.run calls) label slot row row ∧
      (s₀.run calls).codeBytes slot = .ok (row.flatMap Single.bytes) ∧
      ∀ x ∈ row, Nat.ofDigits 256 (x.bytes.map UInt8.toNat) = x.bits.toNat) := by
  refine ⟨?_, ?_⟩
  · intro α memory codec metric s₀ calls row label slot hnew hrow hroom hs
    have h₀ := coherent_of_new hnew
    obtain ⟨rfl, -⟩ := eq_of_new hnew
    exact holds_inserted h₀ hrow hs (hrow.length_eq ▸ hroom)
  · intro memory dimension metric s₀ calls row label slot hnew hrow hs
    have h₀ := coherent_of_new hnew
    have hf := (fits_of_new hnew).run h₀ calls
    obtain ⟨rfl, -⟩ := eq_of_new hnew
    obtain ⟨h, hcodec⟩ := h₀.run calls
    have hlt := h.lt_physical_of_slotOf? hs
    have hdim : (Store.run _ calls).dimension = dimension := congrArg Codec.dimension hcodec
    have hroom := hf.vectors_le h (by rw [hdim, hcodec]) (show slot + 1 ≤ _ from hlt)
    rw [Nat.one_mul, hdim] at hroom
    have hbytes := h.codeBytes_eq hlt
    rw [codeOf_inserted h₀ hrow hs, hcodec] at hbytes
    exact ⟨holds_inserted h₀ hrow hs hroom, hbytes, fun x _ => ofDigits_bytes x⟩

/-- The row is a NaN with a payload. It goes to a reused slot, and stays there while the other slot
is reused. -/
theorem contents_stable_payload :
    let s₀ : Store Single := { memory := .host, codec := Codec.flat 1, metric := .l2 }
    let calls : List Call := [.add [⟨1⟩, ⟨2⟩], .delete [0], .add [⟨0x7fc00001⟩], .delete [1],
      .add [⟨0x80000000⟩]]
    Store.new .host (Codec.flat 1) .l2 = .ok s₀ ∧ Inserted s₀ calls [⟨0x7fc00001⟩] 2 ∧
      4 * 1 ≤ Word.longestBuffer ∧ (s₀.run calls).slotOf? 2 = some 0 ∧
      (s₀.run calls).code 0 = .ok [⟨0x7fc00001⟩] ∧
      (s₀.run calls).codeBytes 0 = .ok [0x01, 0x00, 0xc0, 0x7f] := by
  intro s₀ calls
  have hnew : Store.new .host (Codec.flat 1) .l2 = .ok s₀ := rfl
  have hadd : (s₀.run (calls.take 2)).add [⟨0x7fc00001⟩] = .ok ([2], s₀.run (calls.take 3)) := by
    dsimp only [s₀, calls]
    rfl
  have hrow : Inserted s₀ calls [⟨0x7fc00001⟩] 2 :=
    ⟨calls.take 2, calls.drop 3, _, _, _, 0, rfl, by decide, hadd, by decide, rfl⟩
  have hs : (s₀.run calls).slotOf? 2 = some 0 := by decide
  have hroom : 4 * 1 ≤ Word.longestBuffer := by decide
  have hholds := contents_stable.1 Single .host _ .l2 s₀ calls _ 2 0 hnew hrow hroom hs
  obtain ⟨-, hbytes, -⟩ := contents_stable.2 .host 1 .l2 s₀ calls _ 2 0 hnew hrow hs
  exact ⟨hnew, hrow, hroom, hs, hholds.code_eq, hbytes⟩

end ExactNeighbors.Store
