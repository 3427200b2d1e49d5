import ExactNeighbors.Settings.Value
import ExactNeighbors.Toml.Date

/-!
# Numbers and words in TOML

Values that are not in quotes: truth values, whole numbers of 64 bits, real numbers, dates and
times. Underscores may stand between digits.
-/
namespace ExactNeighbors.Toml

/-- Digits in which underscores stand only between digits, without them. -/
def digits? (isDigit : Char → Bool) (cs : List Char) : Option (List Char) :=
  let groups := (String.ofList cs).splitOn "_"
  if groups.all fun g => g ≠ "" ∧ g.toList.all isDigit then some (cs.filter (· ≠ '_')) else none

def radix? (base : Nat) (cs : List Char) : Option Nat := do
  let isDigit (c : Char) : Bool := (Json.hexDigit? c).any (· < base)
  let ds ← digits? isDigit cs
  some (ds.foldl (fun n c => base * n + (Json.hexDigit? c).getD 0) 0)

def whole? (n : Option Int) : Option Setting :=
  n.bind fun i => if -0x8000000000000000 ≤ i ∧ i < 0x8000000000000000 then some (.int i) else none

def decimal? (cs : List Char) : Option (List Char) := do
  let ds ← digits? Char.isDigit cs
  if ds.head? = some '0' ∧ 1 < ds.length then none else some ds

def isPoint (c : Char) : Bool := c = '.'

def isExponentMark (c : Char) : Bool := c = 'e' || c = 'E'

def fractionPart? : List Char → Option (List Char)
  | [] => some []
  | _ :: r => (digits? Char.isDigit r).map ('.' :: ·)

def exponentPart? : List Char → Option (List Char)
  | [] => some []
  | _ :: r =>
    let (down, ds) := Numeral.sign r
    (digits? Char.isDigit ds).map fun ds => 'e' :: (if down then '-' else '+') :: ds

/-- A real number: digits, then a fraction or an exponent or both. Positive ones that are too
large are refused. -/
def real? (negative : Bool) (cs : List Char) : Option Setting := do
  let significand := cs.takeWhile (!isExponentMark ·)
  let whole ← decimal? (significand.takeWhile (!isPoint ·))
  let fraction ← fractionPart? (significand.dropWhile (!isPoint ·))
  let exponent ← exponentPart? (cs.dropWhile (!isExponentMark ·))
  let n ← Numeral.ofChars? ((if negative then ['-'] else []) ++ whole ++ fraction ++ exponent)
  let x := n.toFloat
  if x.isInf ∧ !negative then none else some (.real x)

def word? (cs : List Char) : Option Setting :=
  match cs with
  | ['t', 'r', 'u', 'e'] => some (.bool true)
  | ['f', 'a', 'l', 's', 'e'] => some (.bool false)
  | '0' :: 'x' :: ds => whole? ((radix? 16 ds).map Int.ofNat)
  | '0' :: 'o' :: ds => whole? ((radix? 8 ds).map Int.ofNat)
  | '0' :: 'b' :: ds => whole? ((radix? 2 ds).map Int.ofNat)
  | cs =>
    let (negative, body) := Numeral.sign cs
    match body with
    | ['i', 'n', 'f'] => some (.real (Numeral.infinite negative).toFloat)
    | ['n', 'a', 'n'] => some (.real Numeral.nan.toFloat)
    | body =>
      if body.any fun c => isPoint c || isExponentMark c then real? negative body
      else whole? ((decimal? body).map fun ds =>
        if negative then -(Numeral.digitsValue ds : Int) else Numeral.digitsValue ds)

def isWordChar (c : Char) : Bool :=
  c.isAlphanum || c = '_' || c = '+' || c = '-' || c = '.' || c = ':'

/-- The characters of a value that is not in quotes. A date takes a time behind one blank along. -/
def wordLength (cs : List Char) : Nat :=
  let first := (cs.takeWhile isWordChar).length
  match date? (cs.take first), cs.drop first with
  | some [], ' ' :: r =>
    let second := (r.takeWhile isWordChar).length
    if second = 0 then first else first + 1 + second
  | _, _ => first

end ExactNeighbors.Toml
