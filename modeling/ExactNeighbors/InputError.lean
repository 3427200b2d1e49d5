import ExactNeighbors.Number.Text

/-!
# Values out of range

The causes for which a metric's text or a settings record is refused.
-/
namespace ExactNeighbors

inductive InputError where
  | unknownMetric (text : String)
  | unreadableExponent (text : String)
  | exponentNotPositive (p : Score)
  | zeroDimension

namespace InputError

def detail : InputError → String
  | .unknownMetric text => "unknown metric: " ++ text
  | .unreadableExponent text => "invalid Lp argument: " ++ text
  | .exponentNotPositive p => "Lp argument must be > 0, got " ++ NumberText.ofScore p
  | .zeroDimension => "dimension must be > 0"

def message (e : InputError) : String := "Invalid input: " ++ e.detail

end InputError
end ExactNeighbors
