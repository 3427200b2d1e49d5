import ExactNeighbors.Metric.Basic
import ExactNeighbors.InputError
import ExactNeighbors.Number.Numeral
import ExactNeighbors.Text.Blank

/-!
# Metrics as text

`Metric.text` writes a metric, `Metric.ofText` reads one: blanks around it and the case of ASCII
letters do not matter, and the inner product has a second name.
-/
namespace ExactNeighbors.Metric

def name : Metric → String
  | .l2 => "l2"
  | .innerProduct => "ip"
  | .l1 => "l1"
  | .linf => "linf"
  | .lp _ => "lp"
  | .canberra => "canberra"
  | .brayCurtis => "braycurtis"
  | .jensenShannon => "jensenshannon"
  | .jaccard => "jaccard"
  | .nanEuclidean => "naneuclidean"

def text : Metric → String
  | .lp p => "lp:" ++ NumberText.ofScore p
  | m => m.name

def named? : String → Option Metric
  | "l2" => some .l2
  | "ip" => some .innerProduct
  | "inner_product" => some .innerProduct
  | "l1" => some .l1
  | "linf" => some .linf
  | "canberra" => some .canberra
  | "braycurtis" => some .brayCurtis
  | "jensenshannon" => some .jensenShannon
  | "jaccard" => some .jaccard
  | "naneuclidean" => some .nanEuclidean
  | _ => none

def ofExponent (s : String) : Except InputError Metric :=
  match Numeral.score? s with
  | none => .error (.unreadableExponent s)
  | some p => if admits p then .ok (.lp p) else .error (.exponentNotPositive p)

def ofText (s : String) : Except InputError Metric :=
  match (trimBlanks s.toList).map Char.toLower with
  | 'l' :: 'p' :: ':' :: argument => ofExponent (String.ofList argument)
  | word =>
    match named? (String.ofList word) with
    | some m => .ok m
    | none => .error (.unknownMetric s)

end ExactNeighbors.Metric
