import ExactNeighbors.Settings.Standard

/-! # Layers of plain keys

The standard engine lays layers over one another entry by entry. As long as no key leads into a
value and no value is a table, an entry replaces what stands under its key and nothing else. So every
key has its value from the last layer that has the key.
-/
namespace ExactNeighbors

def Setting.isTable : Setting → Bool
  | .table _ => true
  | _ => false

namespace Layer

structure Plain (l : Layer Setting) : Prop where
  nodup : (l.map Prod.fst).Nodup
  key_eq : ∀ e ∈ l, Key.ofText e.1 = ⟨e.1, []⟩
  isTable_eq : ∀ e ∈ l, e.2.isTable = false

variable {l : Layer Setting} {layers : List (Layer Setting)} {key : String} {v : Setting}

theorem Plain.tail {e : String × Setting} (h : Plain (e :: l)) : Plain l where
  nodup := (List.nodup_cons.mp h.nodup).2
  key_eq e' he := h.key_eq e' (List.mem_cons_of_mem e he)
  isTable_eq e' he := h.isTable_eq e' (List.mem_cons_of_mem e he)

instance (l : Layer Setting) : Decidable (Plain l) :=
  decidable_of_iff ((l.map Prod.fst).Nodup ∧ (∀ e ∈ l, Key.ofText e.1 = ⟨e.1, []⟩) ∧
      ∀ e ∈ l, e.2.isTable = false)
    ⟨fun ⟨hnodup, hkey, htable⟩ => ⟨hnodup, hkey, htable⟩,
      fun h => ⟨h.nodup, h.key_eq, h.isTable_eq⟩⟩

end Layer

end ExactNeighbors
