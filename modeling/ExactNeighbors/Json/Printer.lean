import ExactNeighbors.Json.Basic
import ExactNeighbors.Number.Text

/-!
# Writing JSON text

`compact` writes on one line without blanks, `pretty` with two blanks per level. Empty lists and
objects stay on one line in both.
-/
namespace ExactNeighbors.Json

def hexLetter (n : Nat) : Char := if n < 10 then Char.ofNat (48 + n) else Char.ofNat (87 + n)

def escaped (c : Char) : List Char :=
  if c = '"' then ['\\', '"']
  else if c = '\\' then ['\\', '\\']
  else if c = '\x08' then ['\\', 'b']
  else if c = '\x0c' then ['\\', 'f']
  else if c = '\n' then ['\\', 'n']
  else if c = '\r' then ['\\', 'r']
  else if c = '\t' then ['\\', 't']
  else if c.toNat < 0x20 then
    ['\\', 'u', '0', '0', hexLetter (c.toNat / 16), hexLetter (c.toNat % 16)]
  else [c]

def quoted (s : String) : String := String.ofList ('"' :: s.toList.flatMap escaped ++ ['"'])

def scalar : Json → String
  | .null => "null"
  | .bool b => if b then "true" else "false"
  | .int i => toString i
  | .double x => NumberText.jsonOfFloat x
  | .single x => NumberText.jsonOfScore x
  | .text s => quoted s
  | .list _ => "[]"
  | .object _ => "\x7b\x7d"

mutual

def compact : Json → String
  | .list items => "[" ++ compactItems items ++ "]"
  | .object members => "\x7b" ++ compactMembers members ++ "\x7d"
  | j => j.scalar

def compactItems : List Json → String
  | [] => ""
  | [j] => compact j
  | j :: js => compact j ++ "," ++ compactItems js

def compactMembers : List (String × Json) → String
  | [] => ""
  | [(k, j)] => quoted k ++ ":" ++ compact j
  | (k, j) :: ms => quoted k ++ ":" ++ compact j ++ "," ++ compactMembers ms

end

def indent (level : Nat) : String := String.ofList ('\n' :: List.replicate (2 * level) ' ')

mutual

def prettyAt (level : Nat) : Json → String
  | .list [] => "[]"
  | .list (j :: js) =>
    "[" ++ indent (level + 1) ++ prettyItems (level + 1) (j :: js) ++ indent level ++ "]"
  | .object [] => "\x7b\x7d"
  | .object (m :: ms) =>
    "\x7b" ++ indent (level + 1) ++ prettyMembers (level + 1) (m :: ms) ++ indent level ++ "\x7d"
  | j => j.scalar

def prettyItems (level : Nat) : List Json → String
  | [] => ""
  | [j] => prettyAt level j
  | j :: js => prettyAt level j ++ "," ++ indent level ++ prettyItems level js

def prettyMembers (level : Nat) : List (String × Json) → String
  | [] => ""
  | [(k, j)] => quoted k ++ ": " ++ prettyAt level j
  | (k, j) :: ms =>
    quoted k ++ ": " ++ prettyAt level j ++ "," ++ indent level ++ prettyMembers level ms

end

def pretty (j : Json) : String := prettyAt 0 j

end ExactNeighbors.Json
