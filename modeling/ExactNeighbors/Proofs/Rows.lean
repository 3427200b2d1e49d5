import ExactNeighbors.Rows

/-! # Writing and reading single rows

Row `i` of a buffer of width `width` does not see what is appended behind it and what is laid over
the other rows.
-/
namespace ExactNeighbors.Rows

variable {α : Type} {width i j : Nat} {xs ys row : List α}

/-- Row `i` of a flat buffer, cut short where the buffer ends. -/
def rowAt (width i : Nat) (xs : List α) : List α := (xs.drop (i * width)).take width

theorem split_eq (width : Nat) (xs : List α) :
    split width xs = (List.range (xs.length / width)).map fun i => rowAt width i xs := rfl

theorem getElem_split (hi : i < (split width xs).length) : (split width xs)[i] = rowAt width i xs := by
  simp only [split_eq, List.getElem_map, List.getElem_range]

theorem length_split_whole (hw : 0 < width) {count : Nat} (h : xs.length = count * width) :
    (split width xs).length = count := by
  rw [length_split, h, Nat.mul_div_cancel _ hw]

theorem getElem?_rowAt (width i k : Nat) (xs : List α) :
    (rowAt width i xs)[k]? = if k < width then xs[i * width + k]? else none := by
  simp [rowAt, List.getElem?_take, List.getElem?_drop]

/-- Two rows agree when the buffers agree at their positions. -/
theorem rowAt_congr (h : ∀ k, k < width → xs[i * width + k]? = ys[j * width + k]?) :
    rowAt width i xs = rowAt width j ys := by
  apply List.ext_getElem?
  intro k
  rw [getElem?_rowAt, getElem?_rowAt]
  split
  · exact h k ‹_›
  · rfl

theorem end_le (width : Nat) {count : Nat} (hi : i < count) :
    i * width + width ≤ count * width := by
  rw [← Nat.succ_mul]
  exact Nat.mul_le_mul_right width hi

/-- Rows of different numbers have no position in common. -/
theorem disjoint (width : Nat) (h : i ≠ j) :
    i * width + width ≤ j * width ∨ j * width + width ≤ i * width := by
  rcases Nat.lt_or_gt_of_ne h with h | h
  · exact Or.inl (end_le width h)
  · exact Or.inr (end_le width h)

theorem length_rowAt (h : i * width + width ≤ xs.length) : (rowAt width i xs).length = width := by
  simp only [rowAt, List.length_take, List.length_drop]
  omega

theorem rowAt_eq_nil (h : xs.length ≤ i * width) : rowAt width i xs = [] := by
  simp [rowAt, List.drop_eq_nil_of_le h]

theorem rowAt_append_left (h : i * width + width ≤ xs.length) :
    rowAt width i (xs ++ ys) = rowAt width i xs := by
  apply rowAt_congr
  intro k hk
  exact List.getElem?_append_left (by omega)

theorem rowAt_append_right (hx : xs.length = i * width) (hr : row.length = width) :
    rowAt width i (xs ++ row) = row := by
  rw [rowAt, ← hx, List.drop_left, ← hr, List.take_length]

theorem getElem?_overlay {start : Nat} (h : start + row.length ≤ xs.length) (k : Nat) :
    (overlay start row xs)[k]? =
      if start ≤ k ∧ k < start + row.length then row[k - start]? else xs[k]? := by
  have hs : (xs.take start).length = start := by simp; omega
  have hsr : (xs.take start ++ row).length = start + row.length := by simp; omega
  unfold overlay
  by_cases hlow : k < start
  · rw [if_neg (by omega), List.getElem?_append_left (by omega), List.getElem?_append_left (by omega),
      List.getElem?_take_of_lt hlow]
  · by_cases hhigh : k < start + row.length
    · rw [if_pos ⟨by omega, hhigh⟩, List.getElem?_append_left (by omega),
        List.getElem?_append_right (by omega), hs]
    · rw [if_neg (by omega), List.getElem?_append_right (by omega), List.getElem?_drop, hsr]
      congr 1
      omega

theorem rowAt_overlay_self (hr : row.length = width) (h : i * width + width ≤ xs.length) :
    rowAt width i (overlay (i * width) row xs) = row := by
  apply List.ext_getElem?
  intro k
  rw [getElem?_rowAt]
  split
  · rw [getElem?_overlay (by omega), if_pos (by omega)]
    congr 1
    omega
  · exact (List.getElem?_eq_none (by omega)).symm

theorem rowAt_overlay_of_ne (hr : row.length = width) (h : i * width + width ≤ xs.length)
    (hij : j ≠ i) : rowAt width j (overlay (i * width) row xs) = rowAt width j xs := by
  apply rowAt_congr
  intro k hk
  have hd := disjoint width hij
  rw [getElem?_overlay (by omega), if_neg (by omega)]

theorem slice?_rowAt (h : i * width + width ≤ xs.length) :
    slice? (i * width) ((i + 1) * width) xs = some (rowAt width i xs) := by
  have hw : (i + 1) * width = i * width + width := Nat.succ_mul i width
  rw [slice?, if_pos (by omega), hw, Nat.add_sub_cancel_left]
  rfl

theorem split_self (hw : 0 < width) (hr : row.length = width) : split width row = [row] := by
  rw [split_eq, hr, Nat.div_self hw]
  simp [rowAt, ← hr]

theorem rowAt_append_succ (hr : row.length = width) (i : Nat) (xs : List α) :
    rowAt width (i + 1) (row ++ xs) = rowAt width i xs := by
  have hstart : (i + 1) * width = row.length + i * width := by rw [Nat.succ_mul, hr, Nat.add_comm]
  rw [rowAt, hstart, List.drop_length_add_append]
  rfl

theorem split_append (hw : 0 < width) (hr : row.length = width) (xs : List α) :
    split width (row ++ xs) = row :: split width xs := by
  have hcount : (row ++ xs).length / width = xs.length / width + 1 := by
    rw [List.length_append, hr, Nat.add_div_left _ hw]
  rw [split_eq, hcount, List.range_succ_eq_map, List.map_cons, List.map_map, split_eq]
  congr 1
  · simp [rowAt, ← hr]
  · apply List.map_congr_left
    intro i _
    exact rowAt_append_succ hr i xs

theorem split_eq_nil (h : xs.length < width) : split width xs = [] := by
  rw [split_eq, Nat.div_eq_of_lt h]
  rfl

theorem length_of_mem_split (h : row ∈ split width xs) : row.length = width := by
  obtain ⟨i, hi, rfl⟩ := List.mem_map.mp h
  have hi := List.mem_range.mp hi
  have hend := end_le width hi
  have hle := Nat.div_mul_le_self xs.length width
  exact length_rowAt (by omega)

theorem mem_of_mem_split {x : α} (hrow : row ∈ split width xs) (hx : x ∈ row) : x ∈ xs := by
  obtain ⟨i, -, rfl⟩ := List.mem_map.mp hrow
  exact List.mem_of_mem_drop (List.mem_of_mem_take hx)

theorem length_flatten {rows : List (List α)} (h : ∀ row ∈ rows, row.length = width) :
    rows.flatten.length = rows.length * width := by
  induction rows with
  | nil => simp
  | cons row rows ih =>
    have hrest := ih fun other ho => h other (List.mem_cons_of_mem row ho)
    rw [List.flatten_cons, List.length_append, h row List.mem_cons_self, hrest, List.length_cons,
      Nat.succ_mul, Nat.add_comm]

theorem split_flatten_append (hw : 0 < width) {rows : List (List α)}
    (h : ∀ row ∈ rows, row.length = width) (xs : List α) :
    split width (rows.flatten ++ xs) = rows ++ split width xs := by
  induction rows with
  | nil => rfl
  | cons row rows ih =>
    rw [List.flatten_cons, List.append_assoc, split_append hw (h row List.mem_cons_self),
      ih fun other ho => h other (List.mem_cons_of_mem row ho), List.cons_append]

theorem split_flatten (hw : 0 < width) {rows : List (List α)}
    (h : ∀ row ∈ rows, row.length = width) : split width rows.flatten = rows := by
  have hnil : split width ([] : List α) = [] := split_eq_nil hw
  have hsplit := split_flatten_append hw h []
  rwa [List.append_nil, hnil, List.append_nil] at hsplit

/-- Position `i * k + j` of rows of width `k` that are joined is position `j` of row `i`. -/
theorem getElem?_flatten {rows : List (List α)} (hrows : ∀ row ∈ rows, row.length = k)
    (hi : i < rows.length) (hj : j < k) : rows.flatten[i * k + j]? = rows[i][j]? := by
  have hk : 0 < k := Nat.zero_lt_of_lt hj
  have hrow : rowAt k i rows.flatten = rows[i] := by
    have hsplit := split_flatten hk hrows
    have hi' : i < (split k rows.flatten).length := by rwa [hsplit]
    rw [← getElem_split hi']
    simp only [hsplit]
  rw [← hrow, getElem?_rowAt, if_pos hj]

/-- Nothing is lost when the rows fill the buffer. -/
theorem flatten_split (hw : 0 < width) {count : Nat} (h : xs.length = count * width) :
    (split width xs).flatten = xs := by
  induction count generalizing xs with
  | zero =>
    rw [Nat.zero_mul, List.length_eq_zero_iff] at h
    rw [h, split_eq_nil hw]
    rfl
  | succ count ih =>
    rw [Nat.succ_mul] at h
    have hfirst : (xs.take width).length = width := List.length_take_of_le (by omega)
    have hothers : (xs.drop width).length = count * width := by rw [List.length_drop]; omega
    calc (split width xs).flatten
        = (split width (xs.take width ++ xs.drop width)).flatten := by rw [List.take_append_drop]
      _ = xs.take width ++ (split width (xs.drop width)).flatten := by
          rw [split_append hw hfirst, List.flatten_cons]
      _ = xs := by rw [ih hothers, List.take_append_drop]

/-- A buffer that rows fill and another one have the rows of both. -/
theorem split_append_whole (hw : 0 < width) {count : Nat} (h : xs.length = count * width)
    (ys : List α) : split width (xs ++ ys) = split width xs ++ split width ys := by
  have hwidth : ∀ row ∈ split width xs, row.length = width :=
    fun _ hrow => length_of_mem_split hrow
  have hsplit := split_flatten_append hw hwidth ys
  rwa [flatten_split hw h] at hsplit

/-- Whole rows fill the buffer that they are split from. -/
theorem split_append_of_mod (hw : 0 < width) (h : xs.length % width = 0) (ys : List α) :
    split width (xs ++ ys) = split width xs ++ split width ys := by
  have hwhole : xs.length = xs.length / width * width := by
    rw [Nat.div_mul_cancel (Nat.dvd_of_mod_eq_zero h)]
  exact split_append_whole hw hwhole ys

theorem count_append (hw : 0 < width) (h : xs.length % width = 0) (ys : List α) :
    (xs ++ ys).length / width = xs.length / width + ys.length / width := by
  rw [← length_split, split_append_of_mod hw h, List.length_append, length_split, length_split]

theorem mod_append (hxs : xs.length % width = 0) (hys : ys.length % width = 0) :
    (xs ++ ys).length % width = 0 := by
  rw [List.length_append, Nat.add_mod, hxs, hys, Nat.zero_mod]

/-- Consecutive rows are a slice of the buffer. -/
theorem flatMap_rowAt (width start count : Nat) (xs : List α) :
    ((List.range' start count).flatMap fun i => rowAt width i xs) =
      (xs.drop (start * width)).take (count * width) := by
  induction count generalizing start with
  | zero => rw [Nat.zero_mul, List.take_zero, List.range'_zero, List.flatMap_nil]
  | succ count ih =>
    have hnext : (start + 1) * width = start * width + width := Nat.succ_mul start width
    have hwidth : (count + 1) * width = width + count * width := by
      rw [Nat.succ_mul, Nat.add_comm]
    rw [List.range'_succ, List.flatMap_cons, ih, hnext, hwidth, List.take_add, List.drop_drop]
    rfl

/-- Going through rows with a step that never fails. -/
theorem mapM_eq_pure_map {α β : Type} {m : Type → Type} [Monad m] [LawfulMonad m] {f : α → m β}
    {g : α → β} {rows : List α} (h : ∀ row ∈ rows, f row = pure (g row)) :
    rows.mapM f = pure (rows.map g) := by
  induction rows with
  | nil => rfl
  | cons row rows ih =>
    rw [List.mapM_cons, h row List.mem_cons_self, ih fun x hx => h x (List.mem_cons_of_mem row hx)]
    simp

end ExactNeighbors.Rows
