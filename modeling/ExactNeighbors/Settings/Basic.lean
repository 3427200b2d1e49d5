import ExactNeighbors.Metric.Text

/-!
# Settings

What an index is built from, and the values that are used where none are given.
-/
namespace ExactNeighbors

structure Settings where
  dimension : Nat := 128
  metric : Metric := .l2
  excludesTombstones : Bool := true
  initialCapacity : Nat := 0
  logLevel : String := "info"

namespace Settings

/-- Refuses a dimension of zero and then a metric whose parameter is out of range. -/
def validate (s : Settings) : Except InputError Unit :=
  if s.dimension = 0 then .error .zeroDimension
  else
    match s.metric with
    | .lp p => if Metric.admits p then .ok () else .error (.exponentNotPositive p)
    | _ => .ok ()

end Settings
end ExactNeighbors
