import SourceSlice.Command.Runs
import SourceSlice.Command.Slice
/-!
# The command line

What may stand on the command line, read from left to right.  An option may be given once; a value that starts with a
dash must be attached to its option.  Anything else is a mistake of usage.
-/
namespace SourceSlice.CommandLine

def version : String := "0.1.0"

def versionLine : String := s!"varslice {version}\n"

inductive Invocation where
  | version
  | slice (options : SliceOptions)
  | listRuns (db : Path) (json : Bool)
  | showRun (db : Path) (id : Int64) (json : Bool)

structure OptionSpec where
  long : String
  short : Option Char := none
  takesValue : Bool := false

def verbose : OptionSpec := { long := "verbose", short := some 'v' }

def sliceOptions : List OptionSpec :=
  [{ long := "table", short := some 'f', takesValue := true }, { long := "sc", takesValue := true },
    { long := "entry", takesValue := true }, { long := "forward" },
    { long := "bidirectional", short := some 'b' }, { long := "print", short := some 'p' },
    { long := "output", short := some 'o', takesValue := true }, { long := "db", takesValue := true },
    { long := "engine", takesValue := true }, { long := "config", takesValue := true }, { long := "dbg" }, verbose]

def listOptions : List OptionSpec := [{ long := "db", takesValue := true }, { long := "json" }, verbose]

def showOptions : List OptionSpec :=
  [{ long := "db", takesValue := true }, { long := "id", takesValue := true }, { long := "json" }, verbose]

/-- The arguments that have been read: options with their values, and the others. -/
structure Arguments where
  given : List (String × String) := []
  others : List String := []

namespace Arguments

/-- Notes an option; only the one for verbosity may be given again. -/
def add (a : Arguments) (spec : OptionSpec) (value : String) : Option Arguments :=
  if spec.long ≠ verbose.long ∧ (a.given.lookup spec.long).isSome then none
  else some { a with given := a.given ++ [(spec.long, value)] }

def value? (a : Arguments) (name : String) : Option String := a.given.lookup name

def flag (a : Arguments) (name : String) : Bool := (a.value? name).isSome

/-- A path, which must not be empty; `none` inside when the option is not given. -/
def path? (a : Arguments) (name : String) : Option (Option Path) :=
  match a.value? name with
  | none => some none
  | some "" => none
  | some s => some (some ⟨s⟩)

def requiredPath? (a : Arguments) (name : String) : Option Path := (a.path? name).bind id

end Arguments

def isDashed (s : String) : Bool := s ≠ "-" && s.toList.head? == some '-'

/-- The options in an argument of one dash, and the option whose value is to come. -/
def readShort (specs : List OptionSpec) (a : Arguments) : List Char → Option (Arguments × Option OptionSpec)
  | [] => some (a, none)
  | c :: rest => do
    let spec ← specs.find? (·.short = some c)
    if spec.takesValue then
      match rest with
      | [] => return (a, some spec)
      | '=' :: value => return (← a.add spec (String.ofList value), none)
      | value => return (← a.add spec (String.ofList value), none)
    else readShort specs (← a.add spec "") rest

/-- The option in an argument of two dashes, and the option whose value is to come. -/
def readLong (specs : List OptionSpec) (a : Arguments) (s : List Char) : Option (Arguments × Option OptionSpec) := do
  let (name, value) := match Text.cutAt '=' s with
    | some (name, value) => (name, some (String.ofList value))
    | none => (s, none)
  let spec ← specs.find? (·.long.toList = name)
  match spec.takesValue, value with
  | true, some value => return (← a.add spec value, none)
  | true, none => return (a, some spec)
  | false, none => return (← a.add spec "", none)
  | false, some _ => none

/-- **Reads the arguments of a command**; `pending` is the option whose value comes next. -/
def readArguments (specs : List OptionSpec) (pending : Option OptionSpec) (a : Arguments) :
    List String → Option Arguments
  | [] => if pending.isSome then none else some a
  | s :: rest => match pending with
    | some spec =>
      if isDashed s then none
      else do
        let a ← a.add spec s
        readArguments specs none a rest
    | none =>
      if s = "--" then some { a with others := a.others ++ rest }
      else match s.toList with
        | '-' :: '-' :: name => do
          let (a, pending) ← readLong specs a name
          readArguments specs pending a rest
        | '-' :: c :: cluster => do
          let (a, pending) ← readShort specs a (c :: cluster)
          readArguments specs pending a rest
        | _ => readArguments specs none { a with others := a.others ++ [s] } rest

/-- A number of 64 bits, with a sign or without one. -/
def int64? (s : String) : Option Int64 := do
  let (negative, ds) := match s.toList with
    | '-' :: ds => (true, ds)
    | '+' :: ds => (false, ds)
    | ds => (false, ds)
  if ds = [] ∨ !ds.all Char.isDigit then none
  let n : Int := Nat.ofDigitChars 10 ds 0
  let n := if negative then -n else n
  if Int64.minValue.toInt ≤ n ∧ n ≤ Int64.maxValue.toInt then some (Int64.ofInt n) else none

def sliceOptions? (a : Arguments) : Option SliceOptions := do
  let [artifact] := a.others | none
  if artifact = "" then none
  return {
    artifact := ⟨artifact⟩, table := ← a.path? "table", criterion := a.value? "sc", entry := a.value? "entry",
    forward := a.flag "forward", bidirectional := a.flag "bidirectional", print := a.flag "print",
    output := ← a.path? "output", db := ← a.path? "db", engine := ← a.path? "engine",
    config := ← a.path? "config", dbg := a.flag "dbg" }

def command? (name : String) (arguments : List String) : Option Invocation :=
  if name = "slice" then do
    let a ← readArguments sliceOptions none {} arguments
    return .slice (← sliceOptions? a)
  else if name = "list-runs" then do
    let a ← readArguments listOptions none {} arguments
    if a.others ≠ [] then none
    return .listRuns (← a.requiredPath? "db") (a.flag "json")
  else if name = "show-run" then do
    let a ← readArguments showOptions none {} arguments
    if a.others ≠ [] then none
    return .showRun (← a.requiredPath? "db") (← (a.value? "id").bind int64?) (a.flag "json")
  else none

/-- Whether a group of letters asks for the version; a letter other than that and verbosity is a mistake. -/
def asksVersion? : List Char → Option Bool
  | [] => some false
  | 'v' :: rest => asksVersion? rest
  | 'V' :: _ => some true
  | _ => none

/-- **What a command line asks for**, or nothing where its usage is mistaken. -/
def parse? : List String → Option Invocation
  | [] => none
  | s :: rest =>
    if s = "--verbose" then parse? rest
    else if s = "--version" then some .version
    else match s.toList with
      | '-' :: '-' :: _ => none
      | '-' :: c :: cluster => match asksVersion? (c :: cluster) with
        | some true => some .version
        | some false => parse? rest
        | none => none
      | _ => command? s rest

/-- What a count of `-v` lets through to the log. -/
def logFilter (verbosity : Nat) : String :=
  match verbosity with
  | 0 => "warn"
  | 1 => "info"
  | _ => "debug"

def usageCode : UInt8 := 2

/-- **Does what was asked for.** -/
def run {σ : Type} (around : Surroundings σ) : Invocation → Command σ Unit
  | .version => Command.print versionLine
  | .slice options => discard (Command.slice around options)
  | .listRuns db json => Command.listRuns db json
  | .showRun db id json => Command.showRun db id json

end SourceSlice.CommandLine
