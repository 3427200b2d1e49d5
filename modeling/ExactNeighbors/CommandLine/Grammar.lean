import ExactNeighbors.Command

/-!
# The command line's grammar

Options are written `-x value`, `-xvalue`, `-x=value`, `--long value` or `--long=value`. A value
of its own does not start with a dash. An option may be given once before and once after the
subcommand; only the list of labels to delete may be given again and again.
-/
namespace ExactNeighbors.CommandLine

inductive Flag where
  | config
  | logLevel
  | data
  | metric
  | delete
  | includeTombstones
  | queries
  | count
  | radius
  | insert
deriving DecidableEq, Repr

namespace Flag

def short? : Flag → Option Char
  | .config => some 'c'
  | .logLevel => some 'l'
  | .data => some 'd'
  | .metric => some 'm'
  | .delete => none
  | .includeTombstones => none
  | .queries => some 'q'
  | .count => some 'k'
  | .radius => some 'r'
  | .insert => some 'i'

def long? : Flag → Option String
  | .config => some "config"
  | .logLevel => some "log-level"
  | .data => some "data"
  | .metric => some "metric"
  | .delete => some "delete"
  | .includeTombstones => some "include-tombstones"
  | .queries => some "queries"
  | .count => none
  | .radius => some "radius"
  | .insert => some "insert"

def takesValue : Flag → Bool
  | .includeTombstones => false
  | _ => true

def mayRepeat : Flag → Bool
  | .delete => true
  | _ => false

end Flag

inductive Subcommand where
  | search
  | range
  | recycle
  | stats
deriving DecidableEq, Repr

def globalFlags : List Flag := [.config, .logLevel]

def buildFlags : List Flag := [.data, .metric, .delete, .includeTombstones]

namespace Subcommand

def named? : String → Option Subcommand
  | "search" => some .search
  | "range" => some .range
  | "recycle" => some .recycle
  | "stats" => some .stats
  | _ => none

def ownFlags : Subcommand → List Flag
  | .search => [.queries, .count]
  | .range => [.queries, .radius]
  | .recycle => [.insert]
  | .stats => []

def flags (s : Subcommand) : List Flag := globalFlags ++ buildFlags ++ s.ownFlags

end Subcommand

abbrev Given := List (Flag × String)

inductive Token where
  /-- A flag, with the value attached to it if there is one. -/
  | flag (f : Flag) (attached : Option String)
  | version
  /-- The mark behind which no flags follow. -/
  | divider
  | word (s : String)
  | unknown

/-- The value attached to a short flag: all that follows, without an equals sign in front. -/
def attachedShort : List Char → Option String
  | [] => none
  | '=' :: r => some (String.ofList r)
  | r => some (String.ofList r)

def longToken (allowed : List Flag) (body : List Char) : Token :=
  let name := String.ofList (body.takeWhile (· ≠ '='))
  let attached := match body.dropWhile (· ≠ '=') with
    | [] => none
    | _ :: r => some (String.ofList r)
  match allowed.find? (·.long? = some name), attached with
  | some f, attached => .flag f attached
  | none, none => if name = "version" then .version else .unknown
  | none, some _ => .unknown

def shortToken (allowed : List Flag) (c : Char) (rest : List Char) : Token :=
  match allowed.find? (·.short? = some c) with
  | some f => .flag f (attachedShort rest)
  | none => if c = 'V' then .version else .unknown

def token (allowed : List Flag) (arg : String) : Token :=
  match arg.toList with
  | ['-', '-'] => .divider
  | '-' :: '-' :: body => longToken allowed body
  | '-' :: c :: rest => shortToken allowed c rest
  | _ => .word arg

def isValue (arg : String) : Bool :=
  match arg.toList with
  | '-' :: _ :: _ => false
  | _ => true

inductive Refusal where
  | usage
  /-- The version was asked for. -/
  | version
deriving DecidableEq, Repr

/-- The value of a flag, attached or taken from the arguments, and the arguments left. -/
def flagValue? (f : Flag) (attached : Option String) (args : List String) :
    Option (String × List String) :=
  match f.takesValue, attached, args with
  | false, none, args => some ("", args)
  | false, some _, _ => none
  | true, some v, args => some (v, args)
  | true, none, v :: args => if isValue v then some (v, args) else none
  | true, none, [] => none

/-- Adds a flag to those given; `none` if it may not be given again. -/
def Given.add? (given : Given) (f : Flag) (value : String) : Option Given :=
  if !f.mayRepeat && given.any (·.1 = f) then none else some (given ++ [(f, value)])

/-- Reads flags up to the first word. The answer is what was given, the word and what follows. -/
def readFlags (allowed : List Flag) :
    Nat → Given → List String → Except Refusal (Given × Option (String × List String))
  | 0, _, _ => .error .usage
  | _, given, [] => .ok (given, none)
  | fuel + 1, given, arg :: args =>
    match token allowed arg with
    | .version => .error .version
    | .unknown => .error .usage
    | .divider => if args.isEmpty then .ok (given, none) else .error .usage
    | .word s => .ok (given, some (s, args))
    | .flag f attached =>
      match flagValue? f attached args with
      | none => .error .usage
      | some (value, args) =>
        match given.add? f value with
        | none => .error .usage
        | some given => readFlags allowed fuel given args

end ExactNeighbors.CommandLine
