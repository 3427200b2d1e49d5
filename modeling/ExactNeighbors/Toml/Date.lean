import ExactNeighbors.Number.Numeral

/-!
# Dates and times in TOML

A date, a time, or both with an offset. They are checked against the calendar and the clock and
kept as text: with a `T` between date and time, at most nine digits of a second and no zeros
behind them, and an offset in hours and minutes below sixty.
-/
namespace ExactNeighbors.Toml

/-- Whether a date stands in the text as it is or inside a string. -/
inductive DateForm where
  | bare
  | quoted
deriving DecidableEq, Repr

namespace DateForm

def lastHour : DateForm → Nat
  | .bare => 23
  | .quoted => 24

/-- Offsets, in minutes. In a string any two numbers make one that is no longer than a day. -/
def allowsOffset : DateForm → Nat → Nat → Bool
  | .bare, hours, minutes => hours ≤ 23 && minutes ≤ 59
  | .quoted, hours, minutes => 60 * hours + minutes ≤ 1440

end DateForm

def digitField? (count low high : Nat) (cs : List Char) : Option (Nat × List Char) :=
  let ds := cs.take count
  let n := Numeral.digitsValue ds
  if ds.length = count ∧ ds.all Char.isDigit ∧ low ≤ n ∧ n ≤ high then some (n, cs.drop count)
  else none

def after? (c : Char) : List Char → Option (List Char)
  | x :: r => if x = c then some r else none
  | [] => none

def isLeapYear (year : Nat) : Bool := year % 4 = 0 && (year % 100 ≠ 0 || year % 400 = 0)

def daysIn (year month : Nat) : Nat :=
  if month = 2 then (if isLeapYear year then 29 else 28)
  else if month ∈ [4, 6, 9, 11] then 30
  else 31

def date? (cs : List Char) : Option (List Char) := do
  let (year, r) ← digitField? 4 0 9999 cs
  let (month, r) ← digitField? 2 1 12 (← after? '-' r)
  let (_, r) ← digitField? 2 1 (daysIn year month) (← after? '-' r)
  return r

def fraction? : List Char → Option (List Char × List Char)
  | '.' :: r =>
    let ds := r.takeWhile Char.isDigit
    let kept := ((ds.take 9).reverse.dropWhile (· = '0')).reverse
    if ds.isEmpty then none
    else some (if kept.isEmpty then [] else '.' :: kept, r.dropWhile Char.isDigit)
  | r => some ([], r)

def time? (form : DateForm) (cs : List Char) : Option (List Char × List Char) := do
  let (_, r) ← digitField? 2 0 form.lastHour cs
  let (_, r) ← digitField? 2 0 59 (← after? ':' r)
  let (_, r) ← digitField? 2 0 60 (← after? ':' r)
  let (fraction, r) ← fraction? r
  return (cs.take 8 ++ fraction, r)

def twoDigits (n : Nat) : List Char := [Nat.digitChar (n / 10), Nat.digitChar (n % 10)]

def offset? (form : DateForm) : List Char → Option (List Char)
  | [] => some []
  | ['Z'] => some ['Z']
  | ['z'] => some ['Z']
  | sign :: cs => do
    let (hours, r) ← digitField? 2 0 99 cs
    let (minutes, r) ← digitField? 2 0 99 (← after? ':' r)
    let n := 60 * hours + minutes
    if r.isEmpty ∧ (sign = '+' ∨ sign = '-') ∧ form.allowsOffset hours minutes then
      some ((if n = 0 then '+' else sign) :: (twoDigits (n / 60) ++ ':' :: twoDigits (n % 60)))
    else none

def timeWithOffset? (form : DateForm) (cs : List Char) : Option (List Char) := do
  let (time, r) ← time? form cs
  return time ++ (← offset? form r)

/-- A whole text as a date, a time, or a date with a time behind a `T` or a blank. -/
def moment? (form : DateForm) (cs : List Char) : Option (List Char) :=
  match date? cs with
  | some [] => some cs
  | some (c :: r) =>
    if c = 'T' ∨ c = 't' ∨ c = ' ' then
      (timeWithOffset? form r).map fun t => cs.take 10 ++ 'T' :: t
    else none
  | none =>
    match time? form cs with
    | some (t, []) => some t
    | _ => none

end ExactNeighbors.Toml
