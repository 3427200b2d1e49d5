import ExactNeighbors.Json.Reader

/-!
# Text in TOML

Blanks, line ends, comments and the four kinds of strings. A carriage return stands only before a
line feed, and a line end inside a string is a line feed.
-/
namespace ExactNeighbors.Toml

def skipBlanks : List Char → List Char := List.dropWhile fun c => c = ' ' || c = '\t'

def isPlain (c : Char) : Bool := c = '\t' || (0x20 ≤ c.toNat && c.toNat ≠ 0x7f)

def newline? : List Char → Option (List Char)
  | '\n' :: r => some r
  | '\r' :: '\n' :: r => some r
  | _ => none

def skipComment : List Char → List Char
  | '#' :: r => r.dropWhile isPlain
  | cs => cs

def lineEnd? (cs : List Char) : Option (List Char) :=
  match skipComment (skipBlanks cs) with
  | [] => some []
  | r => newline? r

def skipLines : Nat → List Char → List Char
  | 0, cs => cs
  | fuel + 1, cs =>
    match newline? (skipBlanks cs) with
    | some r => skipLines fuel r
    | none => skipBlanks cs

def skipFiller : Nat → List Char → List Char
  | 0, cs => cs
  | fuel + 1, cs =>
    let r := skipComment (skipBlanks cs)
    match newline? r with
    | some r => skipFiller fuel r
    | none => r

def unicode? (count : Nat) (cs : List Char) : Option (Char × List Char) := do
  let ds := cs.take count
  if ds.length < count then none
  let n ← ds.foldlM (fun n c => (Json.hexDigit? c).map (16 * n + ·)) 0
  if n < 0xd800 ∨ (0xe000 ≤ n ∧ n < 0x110000) then some (Char.ofNat n, cs.drop count) else none

def escape? : List Char → Option (Char × List Char)
  | '"' :: r => some ('"', r)
  | '\\' :: r => some ('\\', r)
  | 'b' :: r => some ('\x08', r)
  | 'f' :: r => some ('\x0c', r)
  | 'n' :: r => some ('\n', r)
  | 'r' :: r => some ('\r', r)
  | 't' :: r => some ('\t', r)
  | 'u' :: r => unicode? 4 r
  | 'U' :: r => unicode? 8 r
  | _ => none

def basicString? : Nat → List Char → Option (List Char × List Char)
  | 0, _ => none
  | fuel + 1, cs =>
    let more (c : Char) (r : List Char) : Option (List Char × List Char) :=
      (basicString? fuel r).map fun (s, r) => (c :: s, r)
    match cs with
    | [] => none
    | '"' :: r => some ([], r)
    | '\\' :: r => (escape? r).bind fun (c, r) => more c r
    | c :: r => if isPlain c then more c r else none

def literalString? (cs : List Char) : Option (List Char × List Char) :=
  match cs.dropWhile fun c => c ≠ '\'' && isPlain c with
  | '\'' :: r => some (cs.takeWhile fun c => c ≠ '\'' && isPlain c, r)
  | _ => none

/-- Quotes inside a string of many lines: three or more end it, and up to two of them still belong
to it. -/
def closing? (quote : Char) (cs : List Char) : Option (List Char × List Char) :=
  let count := min 5 (cs.takeWhile (· = quote)).length
  if count < 3 then none else some (List.replicate (count - 3) quote, cs.drop count)

/-- The rest of a string of many lines. Between double quotes there are escapes, and a backslash
at the end of a line drops the white space up to the next character. -/
def multiline? (quote : Char) : Nat → List Char → Option (List Char × List Char)
  | 0, _ => none
  | fuel + 1, cs =>
    let more (c : Char) (r : List Char) : Option (List Char × List Char) :=
      (multiline? quote fuel r).map fun (s, r) => (c :: s, r)
    match closing? quote cs, newline? cs, cs with
    | some closed, _, _ => some closed
    | none, some r, _ => more '\n' r
    | none, none, [] => none
    | none, none, c :: r =>
      if c = '\\' ∧ quote = '"' then
        match newline? (skipBlanks r) with
        | some r => multiline? quote fuel (skipLines fuel r)
        | none => (escape? r).bind fun (c, r) => more c r
      else if isPlain c then more c r
      else none

def openMultiline? (quote : Char) (cs : List Char) : Option (List Char × List Char) :=
  multiline? quote (cs.length + 1) ((newline? cs).getD cs)

/-- A string of any kind at the head of a text; `none` also where there is no string. -/
def string? : List Char → Option (List Char × List Char)
  | '"' :: '"' :: '"' :: r => openMultiline? '"' r
  | '\'' :: '\'' :: '\'' :: r => openMultiline? '\'' r
  | '"' :: r => basicString? (r.length + 1) r
  | '\'' :: r => literalString? r
  | _ => none

end ExactNeighbors.Toml
