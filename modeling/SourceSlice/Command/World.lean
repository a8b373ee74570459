import SourceSlice.Batch.Slicer
import SourceSlice.Results.Handle
import SourceSlice.Settings.Load
/-!
# What commands work on

A command reads and writes files, runs the engine, looks at the clock, and prints.  `World` is all that it changes,
`Surroundings` what it is given.  What a command printed before it failed stays printed.
-/
namespace SourceSlice

structure World (σ : Type) where
  files : FileSystem
  engine : σ
  /-- The requests made so far: the path of the engine and its arguments. -/
  calls : List (Path × List String)
  ticks : Nat
  stdout : String
  warnings : List String

structure Surroundings (σ : Type) where
  /-- The value of `Settings.engineVariable`, when it is set. -/
  engineVariable : Option String
  /-- The directories of programs, when they are set. -/
  searchPath : Option String := none
  program : Program σ
  clock : Nat → String

inductive Cause where
  | settings (error : SettingsError)
  | slicing (error : SliceError)
  | store (error : StoreError)
  | file (fault : FileFault)
  | artifactMissing (path : Path)
  | databaseMissing (path : Path)

/-- Why a command failed, and what it was doing when that is worth telling. -/
structure Failure where
  context : Option String
  cause : Cause

/-- The wordings of a cause and of what is behind it. -/
def Cause.chain : Cause → List String
  | settings error => error.message :: match error with
    | .unreadable _ fault => [fault.message]
    | _ => []
  | slicing error => error.message :: match error with
    | .engineNotFound _ fault => [fault.message]
    | .sourceUnavailable _ fault => [fault.message]
    | .tableUnreadable _ fault => [fault.message]
    | _ => []
  | store error => error.message :: match error with
    | .io fault => [fault.message]
    | _ => []
  | file fault => [fault.message]
  | artifactMissing path => [s!"Artifact does not exist: {path.text}"]
  | databaseMissing path => [s!"Results database does not exist: {path.text}"]

def Failure.chain (f : Failure) : List String := f.context.toList ++ f.cause.chain

/-- The lines after the first one moved right by `n` blanks. -/
def indentLines (n : Nat) (s : String) : String :=
  String.ofList (s.toList.flatMap fun c => if c = '\n' then '\n' :: List.replicate n ' ' else [c])

/-- A cause with its number, which stands right in five columns. -/
def numberedCause (n : Nat) (s : String) : String :=
  let digits := toString n
  "".pushn ' ' (5 - digits.length) ++ digits ++ ": " ++ indentLines 7 s ++ "\n"

/-- **The report of a failure**: the outermost wording, then its causes, numbered when there are several. -/
def Failure.report (f : Failure) : String :=
  match f.chain with
  | [] => ""
  | top :: causes =>
    s!"Error: {top}\n" ++ match causes with
      | [] => ""
      | [cause] => s!"\nCaused by:\n    {indentLines 4 cause}\n"
      | causes => "\nCaused by:\n" ++ String.join (causes.mapIdx numberedCause)

/-- Work that may fail and changes the world either way. -/
abbrev Command (σ : Type) := EStateM Failure (World σ)

namespace Command

variable {σ : Type}

def print (s : String) : Command σ Unit := modify fun w => { w with stdout := w.stdout ++ s }

def printLine (s : String) : Command σ Unit := print (s ++ "\n")

def warn (s : String) : Command σ Unit := modify fun w => { w with warnings := w.warnings ++ [s] }

def now (around : Surroundings σ) : Command σ String := fun w =>
  .ok (around.clock w.ticks) { w with ticks := w.ticks + 1 }

def fail {α : Type} (context : Option String) (cause : Cause) : Command σ α := throw ⟨context, cause⟩

def ofExcept {ε α : Type} (context : Option String) (cause : ε → Cause) : Except ε α → Command σ α
  | .ok a => pure a
  | .error error => fail context (cause error)

def ofStoring {α : Type} (context : String) (work : Storing α) : Command σ α := fun w =>
  match work w.files with
  | .ok a files => .ok a { w with files }
  | .error error files => .error ⟨some context, .store error⟩ { w with files }

def files : Command σ FileSystem := return (← get).files

def setFiles (files : FileSystem) : Command σ Unit := modify fun w => { w with files }

end Command
end SourceSlice
