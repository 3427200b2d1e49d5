import ExactNeighbors.Settings.Layer
import ExactNeighbors.Toml.Value

/-!
# TOML documents

Lines with `key = value`, headers of tables and comments. The keys below a header belong to its
table.
-/
namespace ExactNeighbors.Toml

inductive Line where
  | blank
  | header (table : List String)
  | listHeader (table : List String)
  | pair (key : List String) (value : Node)

def closeLine? : List Char → List Char → Option (List Char)
  | [], r => lineEnd? r
  | c :: cs, r => (after? c r).bind (closeLine? cs)

def line? (cs : List Char) : Option (Line × List Char) :=
  match skipBlanks cs with
  | '[' :: '[' :: r => do
    let (table, r) ← key? r
    return (.listHeader table, ← closeLine? [']', ']'] r)
  | '[' :: r => do
    let (table, r) ← key? r
    return (.header table, ← closeLine? [']'] r)
  | cs =>
    match lineEnd? cs with
    | some r => some (.blank, r)
    | none => do
      let (key, r) ← keyBeforeValue? cs
      let (n, r) ← value? (2 * r.length + 2) (depthLimit - 1) r
      return (.pair key n, ← lineEnd? r)

def lines? : Nat → List Char → Option (List Line)
  | _, [] => some []
  | 0, _ => none
  | fuel + 1, cs => do
    let (line, r) ← line? cs
    return line :: (← lines? fuel r)

/-- Adds a line to the tables so far; `table` is the one that the latest header opened. -/
def addLine? : List String × Members → Line → Option (List String × Members)
  | state, .blank => some state
  | (_, ms), .header path => do
    let key ← path.getLast?
    return (path, ← ms.visit? (Members.openTable? key) path.dropLast)
  | (_, ms), .listHeader path => do
    let key ← path.getLast?
    return (path, ← ms.visit? (Members.appendTable? key) path.dropLast)
  | (table, ms), .pair key n => do
    return (table, ← ms.visit? (Members.define? n key) table)

def ofText? (s : String) : Option (Layer Setting) := do
  let cs := match s.toList with
    | '\ufeff' :: r => r
    | cs => cs
  let lines ← lines? (cs.length + 1) cs
  let (_, ms) ← lines.foldlM addLine? ([], [])
  match ← Node.toSetting? (.table .header ms) with
  | .table settings => return settings
  | _ => none

end ExactNeighbors.Toml
