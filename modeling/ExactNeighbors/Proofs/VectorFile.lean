import ExactNeighbors.VectorFile
import ExactNeighbors.Proofs.Rows

/-! # What a vector file holds

A file that can be parsed into rows is accepted exactly when it has a row and all rows have one
length that is not zero.
-/
namespace ExactNeighbors

def rowsAt? (rows? : String → Option (List (List Single))) (files : Files) (path : String) :
    Option (List (List Single)) :=
  (files path).bind rows?

structure Shaped (rows : List (List Single)) (dimension : Nat) : Prop where
  ne_nil : rows ≠ []
  dimension_pos : 0 < dimension
  length_eq : ∀ row ∈ rows, row.length = dimension

variable {rows : List (List Single)} {dimension : Nat} {files : Files} {path : String}

theorem Shaped.dimension_eq (h : Shaped rows dimension) : (rows.headD []).length = dimension := by
  cases rows with
  | nil => exact absurd rfl h.ne_nil
  | cons first rest => exact h.length_eq first List.mem_cons_self

theorem Shaped.length_pos (h : Shaped rows dimension) : 0 < rows.length :=
  List.length_pos_iff.mpr h.ne_nil

namespace Vectors

theorem ofRows_eq_ok (h : Shaped rows dimension) (path : String) :
    ofRows path rows = .ok ⟨dimension, rows.flatten⟩ := by
  cases rows with
  | nil => exact absurd rfl h.ne_nil
  | cons first rest =>
    have hfirst := h.length_eq first List.mem_cons_self
    have hempty : first.isEmpty = false := by
      rw [List.isEmpty_eq_false_iff_exists_mem]
      exact List.length_pos_iff_exists_mem.mp (hfirst ▸ h.dimension_pos)
    rw [ofRows, hempty, if_neg Bool.false_ne_true]
    split
    · rename_i row number hfind
      have hrow := h.length_eq row
        (List.fst_mem_of_mem_zipIdx (List.mem_of_find?_eq_some hfind))
      have huneven := List.find?_some hfind
      simp [hrow, hfirst] at huneven
    · rw [hfirst]

theorem shaped_of_ofRows {v : Vectors} (h : ofRows path rows = .ok v) :
    ∃ dimension, Shaped rows dimension := by
  cases rows with
  | nil => cases h
  | cons first rest =>
    rw [ofRows] at h
    split at h
    · cases h
    · rename_i hempty
      split at h
      · cases h
      · rename_i heven
        refine ⟨first.length, List.cons_ne_nil _ _, ?_, ?_⟩
        · exact List.length_pos_iff.mpr fun hnil => hempty (by rw [hnil]; rfl)
        · intro row hrow
          rw [List.find?_eq_none] at heven
          obtain ⟨i, hi, hget⟩ := List.mem_iff_getElem.mp hrow
          have hlength := heven (row, i) (by
            rw [← hget]
            exact List.mk_mem_zipIdx_iff_getElem?.mpr (List.getElem?_eq_getElem hi))
          simpa using hlength

theorem count_eq (h : Shaped rows dimension) :
    (⟨dimension, rows.flatten⟩ : Vectors).count = rows.length := by
  rw [count, Rows.length_flatten h.length_eq, Nat.mul_div_cancel _ h.dimension_pos]

theorem values_eq (dimension : Nat) (rows : List (List Single)) :
    (⟨dimension, rows.flatten⟩ : Vectors).values = (rows.map (·.map Single.value)).flatten :=
  List.map_flatten

theorem read_eq {rows? : String → Option (List (List Single))}
    (h : rowsAt? rows? files path = some rows) : read rows? files path = ofRows path rows := by
  obtain ⟨text, htext, hrows⟩ := Option.bind_eq_some_iff.mp h
  rw [read, htext]
  simp only [hrows]

end Vectors
end ExactNeighbors
