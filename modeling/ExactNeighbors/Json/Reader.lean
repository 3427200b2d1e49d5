import ExactNeighbors.Json.Number

/-!
# Reading JSON text

A strict reader: four blanks, no trailing commas, no bare control characters in strings, no lone
surrogates. Nesting is limited to 127 levels.
-/
namespace ExactNeighbors.Json

def skipBlanks : List Char → List Char :=
  List.dropWhile fun c => c = ' ' || c = '\t' || c = '\n' || c = '\r'

def hexDigit? (c : Char) : Option Nat :=
  if c.isDigit then some (c.toNat - '0'.toNat)
  else if 'a' ≤ c ∧ c ≤ 'f' then some (c.toNat - 'a'.toNat + 10)
  else if 'A' ≤ c ∧ c ≤ 'F' then some (c.toNat - 'A'.toNat + 10)
  else none

def hexFour? : List Char → Option (Nat × List Char)
  | a :: b :: c :: d :: r => do
    return (((← hexDigit? a) * 16 + (← hexDigit? b)) * 256 +
      (← hexDigit? c) * 16 + (← hexDigit? d), r)
  | _ => none

/-- The character behind `\u`; a pair of surrogates makes one character. -/
def escapedUnit? (cs : List Char) : Option (Char × List Char) := do
  let (u, r) ← hexFour? cs
  if 0xd800 ≤ u ∧ u < 0xdc00 then
    match r with
    | '\\' :: 'u' :: r =>
      let (v, r) ← hexFour? r
      if 0xdc00 ≤ v ∧ v < 0xe000 then
        return (Char.ofNat (0x10000 + (u - 0xd800) * 0x400 + (v - 0xdc00)), r)
      else none
    | _ => none
  else if 0xdc00 ≤ u ∧ u < 0xe000 then none
  else return (Char.ofNat u, r)

def string? : Nat → List Char → Option (List Char × List Char)
  | 0, _ => none
  | fuel + 1, cs =>
    let more (c : Char) (r : List Char) : Option (List Char × List Char) :=
      (string? fuel r).map fun (s, r) => (c :: s, r)
    match cs with
    | [] => none
    | '"' :: r => some ([], r)
    | '\\' :: '"' :: r => more '"' r
    | '\\' :: '\\' :: r => more '\\' r
    | '\\' :: '/' :: r => more '/' r
    | '\\' :: 'b' :: r => more '\x08' r
    | '\\' :: 'f' :: r => more '\x0c' r
    | '\\' :: 'n' :: r => more '\n' r
    | '\\' :: 'r' :: r => more '\r' r
    | '\\' :: 't' :: r => more '\t' r
    | '\\' :: 'u' :: r => (escapedUnit? r).bind fun (c, r) => more c r
    | '\\' :: _ => none
    | c :: r => if c.toNat < 0x20 then none else more c r

mutual

/-- A value at the head of a text. Every call consumes fuel; the length of the text suffices. -/
def value? : Nat → Nat → List Char → Option (Json × List Char)
  | 0, _, _ => none
  | fuel + 1, depth, cs =>
    match skipBlanks cs with
    | 'n' :: 'u' :: 'l' :: 'l' :: r => some (.null, r)
    | 't' :: 'r' :: 'u' :: 'e' :: r => some (.bool true, r)
    | 'f' :: 'a' :: 'l' :: 's' :: 'e' :: r => some (.bool false, r)
    | '"' :: r => (string? (r.length + 1) r).map fun (s, r) => (.text (String.ofList s), r)
    | '[' :: r =>
      if depth = 0 then none
      else match skipBlanks r with
        | ']' :: r => some (.list [], r)
        | r => (items? fuel (depth - 1) r).map fun (js, r) => (.list js, r)
    | '{' :: r =>
      if depth = 0 then none
      else match skipBlanks r with
        | '}' :: r => some (.object [], r)
        | r => (members? fuel (depth - 1) r).map fun (ms, r) => (.object ms, r)
    | r => number? r

def items? : Nat → Nat → List Char → Option (List Json × List Char)
  | 0, _, _ => none
  | fuel + 1, depth, cs => do
    let (j, r) ← value? fuel depth cs
    match skipBlanks r with
    | ']' :: r => return ([j], r)
    | ',' :: r =>
      let (js, r) ← items? fuel depth r
      return (j :: js, r)
    | _ => none

def members? : Nat → Nat → List Char → Option (List (String × Json) × List Char)
  | 0, _, _ => none
  | fuel + 1, depth, cs =>
    match skipBlanks cs with
    | '"' :: r => do
      let (key, r) ← string? (r.length + 1) r
      match skipBlanks r with
      | ':' :: r =>
        let (j, r) ← value? fuel depth r
        match skipBlanks r with
        | '}' :: r => return ([(String.ofList key, j)], r)
        | ',' :: r =>
          let (ms, r) ← members? fuel depth r
          return ((String.ofList key, j) :: ms, r)
        | _ => none
      | _ => none
    | _ => none

end

def ofText? (s : String) : Option Json :=
  let cs := s.toList
  match value? (2 * cs.length + 2) 127 cs with
  | some (j, r) => if (skipBlanks r).isEmpty then some j else none
  | none => none

end ExactNeighbors.Json
