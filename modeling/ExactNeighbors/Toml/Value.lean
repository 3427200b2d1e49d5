import ExactNeighbors.Toml.Scalar
import ExactNeighbors.Toml.Table
import ExactNeighbors.Toml.Text

/-!
# Keys and values in TOML

A key is one or more names between points. A value is a string, a scalar, an array over any number
of lines, or a table in braces on one line.
-/
namespace ExactNeighbors.Toml

def depthLimit : Nat := 80

def isKeyChar (c : Char) : Bool := c.isAlphanum || c = '_' || c = '-'

def keyName? : List Char → Option (String × List Char)
  | '"' :: r => (basicString? (r.length + 1) r).map fun (s, r) => (String.ofList s, r)
  | '\'' :: r => (literalString? r).map fun (s, r) => (String.ofList s, r)
  | cs =>
    let key := cs.takeWhile isKeyChar
    if key.isEmpty then none else some (String.ofList key, cs.dropWhile isKeyChar)

def keyNames? : Nat → List Char → Option (List String × List Char)
  | 0, _ => none
  | fuel + 1, cs => do
    let (name, r) ← keyName? (skipBlanks cs)
    match skipBlanks r with
    | '.' :: r =>
      let (names, r) ← keyNames? fuel r
      return (name :: names, r)
    | r => return ([name], r)

def key? (cs : List Char) : Option (List String × List Char) := keyNames? (depthLimit - 1) cs

def keyBeforeValue? (cs : List Char) : Option (List String × List Char) := do
  match ← key? cs with
  | (key, '=' :: r) => return (key, skipBlanks r)
  | _ => none

def unquoted? (cs : List Char) : Option (Node × List Char) :=
  let n := wordLength cs
  let word := cs.take n
  match moment? .bare word with
  | some m => some (.date (String.ofList m), cs.drop n)
  | none => (word? word).map fun v => (.scalar v, cs.drop n)

def quoted? (cs : List Char) : Option (Node × List Char) :=
  (string? cs).map fun (s, r) => (.scalar (.text (String.ofList s)), r)

mutual

/-- A value at the head of a text, with so many levels left for what it holds. -/
def value? : Nat → Nat → List Char → Option (Node × List Char)
  | 0, _, _ => none
  | fuel + 1, levels, cs =>
    match cs with
    | '"' :: _ => quoted? cs
    | '\'' :: _ => quoted? cs
    | '[' :: r =>
      if levels = 0 then none
      else (items? fuel (levels - 1) r).map fun (ns, r) => (.array ns, r)
    | '{' :: r =>
      if levels = 0 then none
      else
        match skipBlanks r with
        | '}' :: r => some (.table .braces [], r)
        | r => (pairs? fuel (levels - 1) [] r).map fun (ms, r) => (.table .braces ms, r)
    | cs => unquoted? cs

def items? : Nat → Nat → List Char → Option (List Node × List Char)
  | 0, _, _ => none
  | fuel + 1, levels, cs =>
    match skipFiller cs.length cs with
    | ']' :: r => some ([], r)
    | cs => do
      let (n, r) ← value? fuel levels cs
      match skipFiller r.length r with
      | ']' :: r => return ([n], r)
      | ',' :: r =>
        let (ns, r) ← items? fuel levels r
        return (n :: ns, r)
      | _ => none

def pairs? : Nat → Nat → Members → List Char → Option (Members × List Char)
  | 0, _, _, _ => none
  | fuel + 1, levels, ms, cs => do
    let (key, r) ← keyBeforeValue? cs
    let (n, r) ← value? fuel levels r
    let ms ← ms.define? n key
    match skipBlanks r with
    | '}' :: r => return (ms, r)
    | ',' :: r => pairs? fuel levels ms r
    | _ => none

end

end ExactNeighbors.Toml
