import ExactNeighbors.CommandLine.Grammar

/-!
# What a command line asks for

The arguments as a request: which command, on which files, with which numbers.
-/
namespace ExactNeighbors.CommandLine

inductive Action where
  | search (queries : String) (k : Nat)
  | range (queries : String) (radius : Score)
  | recycle (insert : String)
  | stats

structure Invocation where
  config? : Option String := none
  logLevel? : Option String := none
  options : BuildOptions
  action : Action

def Given.value? (given : Given) (f : Flag) : Option String := given.lookup f

def path? (given : Given) (f : Flag) : Option String :=
  (given.value? f).bind fun path => if path = "" then none else some path

/-- Labels between commas. An empty list is one empty label, which is none. -/
def labels? (s : String) : Option (List Nat) := (s.splitOn ",").mapM Numeral.size?

def deletions? (given : Given) : Option (List Nat) := do
  let lists ← (given.filter (·.1 = .delete)).mapM fun (_, value) => labels? value
  return lists.flatten

/-- The value of a flag that need not be given; `none` if it is given and cannot be read. -/
def optional? {α : Type} (given : Given) (f : Flag) (read : String → Option α) :
    Option (Option α) :=
  match given.value? f with
  | none => some none
  | some s => (read s).map some

def options? (given : Given) : Option BuildOptions := do
  return {
    data := ← path? given .data
    metric? := ← optional? given .metric fun s => (Metric.ofText s).toOption
    delete := ← deletions? given
    includeTombstones := given.any (·.1 = .includeTombstones) }

def action? (given : Given) : Subcommand → Option Action
  | .search => do
    return .search (← path? given .queries) ((← optional? given .count Numeral.size?).getD 10)
  | .range => do
    return .range (← path? given .queries) (← (given.value? .radius).bind Numeral.score?)
  | .recycle => do return .recycle (← path? given .insert)
  | .stats => some .stats

def orUsage {α : Type} : Option α → Except Refusal α
  | some a => .ok a
  | none => .error .usage

/-- The request behind arguments. A version is only offered before the subcommand. -/
def parse (args : List String) : Except Refusal Invocation := do
  let (before, next) ← readFlags globalFlags (args.length + 1) [] args
  let (word, rest) ← orUsage next
  let subcommand ← orUsage (Subcommand.named? word)
  match readFlags subcommand.flags (rest.length + 1) [] rest with
  | .ok (given, none) =>
    let find (f : Flag) : Option String := (given.value? f) <|> (before.value? f)
    return {
      config? := find .config
      logLevel? := find .logLevel
      options := ← orUsage (options? given)
      action := ← orUsage (action? given subcommand) }
  | _ => throw .usage

def Invocation.vectorPaths (i : Invocation) : List String :=
  i.options.data :: match i.action with
    | .search queries _ => [queries]
    | .range queries _ => [queries]
    | .recycle insert => [insert]
    | .stats => []

end ExactNeighbors.CommandLine
