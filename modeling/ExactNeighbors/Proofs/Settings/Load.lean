import ExactNeighbors.Proofs.Settings.Document
import ExactNeighbors.Proofs.Settings.Standard
import ExactNeighbors.Settings.Load

/-! # Settings from the highest layer

An engine that merges key by key leaves under each key what the highest layer with the key says. So
each field is read from that value, whatever the other fields and the lower layers hold. Loading
fails only after all layers have been merged: for a value that its field cannot be made of, and then
for a dimension of zero. Metrics out of range are never read.
-/
namespace ExactNeighbors.Settings

def fieldNames : List String :=
  ["dimension", "metric", "exclude_tombstones", "initial_capacity", "log_level"]

section Effective

variable {Value : Type} (engine : Engine Value)

/-- The value that the highest source with a key gives it: the environment, the file that was asked
for, the default file, the built-in values. -/
def effective (sources : Sources) (default : Layer Value) (explicit? : Option (Layer Value))
    (key : String) : Option Value :=
  [engine.environment sources.environment, explicit?.getD [], default, builtIn engine].findSome?
    (·.lookup key)

structure Coerces (value : String → Option Value) (s : Settings) : Prop where
  dimension : (value "dimension").bind engine.size? = some s.dimension
  metric : (value "metric").bind (metric? engine) = some s.metric
  excludesTombstones : (value "exclude_tombstones").bind engine.bool? = some s.excludesTombstones
  initialCapacity : (value "initial_capacity").bind engine.size? = some s.initialCapacity
  logLevel : (value "log_level").bind engine.text? = some s.logLevel

inductive Ends (value : String → Option Value) : Except LoadError Settings → Prop where
  | loaded {s : Settings} (hs : Coerces engine value s) (hd : s.dimension ≠ 0) : Ends value (.ok s)
  | refused {s : Settings} (hs : Coerces engine value s) (hd : s.dimension = 0) :
    Ends value (.error (.input .zeroDimension))
  | unread (h : ∀ s, ¬Coerces engine value s) : Ends value (.error .value)

end Effective

variable {Value : Type} {engine : Engine Value} {sources : Sources} {path? : Option String}
variable {table default : Layer Value} {explicit? : Option (Layer Value)}
variable {value value' : String → Option Value} {s t : Settings}

namespace Coerces

theorem unique (hs : Coerces engine value s) (ht : Coerces engine value t) : s = t := by
  obtain ⟨hd, hm, he, hc, hl⟩ := hs
  obtain ⟨hd', hm', he', hc', hl'⟩ := ht
  cases s
  cases t
  simp_all

theorem congr (h : ∀ field ∈ fieldNames, value' field = value field) (hs : Coerces engine value s) :
    Coerces engine value' s where
  dimension := by rw [h _ (by decide), hs.dimension]
  metric := by rw [h _ (by decide), hs.metric]
  excludesTombstones := by rw [h _ (by decide), hs.excludesTombstones]
  initialCapacity := by rw [h _ (by decide), hs.initialCapacity]
  logLevel := by rw [h _ (by decide), hs.logLevel]

end Coerces

namespace Ends

variable {result result' : Except LoadError Settings}

theorem unique (h : Ends engine value result)
    (h' : Ends engine value result') : result = result' := by
  cases h with
  | loaded hs hd =>
    cases h' with
    | loaded ht => rw [hs.unique ht]
    | refused ht hd' => exact absurd (hs.unique ht ▸ hd') hd
    | unread hno => exact absurd hs (hno _)
  | refused hs hd =>
    cases h' with
    | loaded ht hd' => exact absurd (hs.unique ht ▸ hd) hd'
    | refused => rfl
    | unread hno => exact absurd hs (hno _)
  | unread hno =>
    cases h' with
    | loaded ht => exact absurd ht (hno _)
    | refused ht => exact absurd ht (hno _)
    | unread => rfl

theorem congr (hsame : ∀ field ∈ fieldNames, value' field = value field)
    (h : Ends engine value result) :
    Ends engine value' result := by
  cases h with
  | loaded hs hd => exact .loaded (hs.congr hsame) hd
  | refused hs hd => exact .refused (hs.congr hsame) hd
  | unread hno =>
    exact .unread fun s hs => hno s (hs.congr fun field hfield => (hsame field hfield).symm)

end Ends

end ExactNeighbors.Settings
