import ExactNeighbors.Files

/-!
# Engines of settings

An engine reads what the sources of settings say and puts it together. A value stays what its source
wrote until a setting is made of it. Settings are loaded the same way with any engine.
-/
namespace ExactNeighbors

abbrev Layer (Value : Type) := List (String × Value)

structure Engine (Value : Type) where
  ofSize : Nat → Value
  ofBool : Bool → Value
  ofText : String → Value
  size? : Value → Option Nat
  bool? : Value → Option Bool
  text? : Value → Option String
  /-- The settings file behind a path, if there is one: what it says, unless it is malformed. -/
  file? : Files → String → Option (Option (Layer Value))
  /-- What the variables that belong to this program say. -/
  environment : List (String × String) → Layer Value
  /-- Puts layers together, the lowest first. -/
  merge? : List (Layer Value) → Option (Layer Value)
  size?_ofSize : ∀ n < 0x8000000000000000, size? (ofSize n) = some n
  bool?_ofBool : ∀ b, bool? (ofBool b) = some b
  text?_ofText : ∀ s, text? (ofText s) = some s

end ExactNeighbors
