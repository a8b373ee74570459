import SourceSlice.Command.Arguments
import SourceSlice.Results.Image
import Std.Time
/-!
# The program

Takes the files below the working directory as they are, and of the directories of programs the names, carries out
what the command line asks for, and writes back the files that have changed.

No other program is started.  What the engine answers is read from standard input instead: one answer for each of its
runs in their order, with a line that holds a single dot between two.

A moment is counted in seconds and nanoseconds from the start of 1970.  Its stamp is the date and the time of day in
universal time, with as many places of the second as it needs: none, three, six or nine.
-/
namespace SourceSlice.Clock

structure Date where
  year : Nat
  month : Nat
  day : Nat
deriving DecidableEq, Repr

/-- **The date of a day**, counted from the start of 1970.  Years are taken to begin in March, so that a leap day is
the last day of its year. -/
def dateOf (days : Nat) : Date :=
  let days := days + 719468
  let era := days / 146097
  let dayOfEra := days % 146097
  let yearOfEra := (dayOfEra - dayOfEra / 1460 + dayOfEra / 36524 - dayOfEra / 146096) / 365
  let dayOfYear := dayOfEra - (365 * yearOfEra + yearOfEra / 4 - yearOfEra / 100)
  let fromMarch := (5 * dayOfYear + 2) / 153
  let day := dayOfYear - (153 * fromMarch + 2) / 5 + 1
  let month := if fromMarch < 10 then fromMarch + 3 else fromMarch - 9
  ⟨yearOfEra + 400 * era + (if month ≤ 2 then 1 else 0), month, day⟩

def padded (width n : Nat) : String :=
  let digits := toString n
  "".pushn '0' (width - digits.length) ++ digits

def fraction (nanos : Nat) : String :=
  if nanos = 0 then ""
  else if nanos % 1000000 = 0 then "." ++ padded 3 (nanos / 1000000)
  else if nanos % 1000 = 0 then "." ++ padded 6 (nanos / 1000)
  else "." ++ padded 9 nanos

/-- **The stamp of a moment.** -/
def stamp (seconds nanos : Nat) : String :=
  let d := dateOf (seconds / 86400)
  let time := seconds % 86400
  padded 4 d.year ++ "-" ++ padded 2 d.month ++ "-" ++ padded 2 d.day ++ "T" ++ padded 2 (time / 3600) ++ ":" ++
    padded 2 (time / 60 % 60) ++ ":" ++ padded 2 (time % 60) ++ fraction nanos ++ "+00:00"

end SourceSlice.Clock

namespace SourceSlice.Program

/-- The place of a directory and all above it. -/
def locationOf (names : List String) : Location := (names.filter fun n => n ≠ "" ∧ n ≠ "/").reverse

/-- The files with what stands in a directory, and in those below it.  What cannot be read is left out. -/
partial def readEntries (place : Location) (entries : List IO.FS.DirEntry) (files : FileSystem) : IO FileSystem := do
  match entries with
  | [] => return files
  | e :: rest =>
    let here := e.fileName :: place
    let files ← try
        if (← e.path.symlinkMetadata).type == .dir then
          readEntries here (← e.path.readDir).toList (files.put here .directory)
        else
          return ← readEntries place rest (files.put here (Node.ofBytes (← IO.FS.readBinFile e.path)))
      catch _ => pure files
    readEntries place rest files

def readFiles : IO FileSystem := do
  let directory ← IO.currentDir
  let here := locationOf directory.components
  let start : FileSystem := ⟨[], here⟩
  readEntries here (← directory.readDir).toList (start.putDirectories here)

/-- The files with the programs of a directory, which are not read. -/
def addPrograms (files : FileSystem) (directory : String) : IO FileSystem := do
  let place := files.spelledPlace ⟨directory⟩
  try
    let entries ← (← IO.FS.realPath directory).readDir
    return entries.foldl (fun files e =>
      let here := e.fileName :: place
      if (files.node? here).isSome then files else files.put here (.file (.program ByteArray.empty) true))
      (files.putDirectories place)
  catch _ => return files

def nameOf (place : Location) : String := "/" ++ "/".intercalate place.reverse

/-- Removes the files that are gone and writes those that are not as they were. -/
def writeFiles (before after : FileSystem) : IO Unit := do
  for (place, _) in before.nodes do
    if (after.node? place).isNone then IO.FS.removeFile (nameOf place)
  for (place, _) in after.nodes do
    if let some bytes := after.imageAt? place then
      if before.imageAt? place ≠ some bytes then IO.FS.writeBinFile (nameOf place) ⟨bytes.toArray⟩

/-- The answers that a text holds, with a line of a single dot between two. -/
def answersOf (text : String) : List String := text.splitOn "\n.\n"

/-- A program that gives one answer after the other and is silent when there are no more. -/
def replay : SourceSlice.Program (List String) := fun _ answers =>
  (⟨.exited 0, (answers.headD "").toUTF8, ByteArray.empty⟩, answers.tail)

def stampNow : IO String := do
  let t ← Std.Time.Timestamp.now
  let nanos := t.toNanosecondsSinceUnixEpoch.val.toNat
  return Clock.stamp (nanos / 1000000000) (nanos % 1000000000)

/-- Carries out what was asked for, and gives the exit code. -/
def perform (invocation : CommandLine.Invocation) : IO UInt32 := do
  let searchPath ← IO.getEnv "PATH"
  let before ← (FileSystem.directoriesIn searchPath).foldlM addPrograms (← readFiles)
  let answers ← match invocation with
    | .slice _ => pure (answersOf (← (← IO.getStdin).readToEnd))
    | _ => pure []
  let time ← stampNow
  let around : Surroundings (List String) :=
    { engineVariable := ← IO.getEnv Settings.engineVariable, searchPath, program := replay,
      clock := fun _ => time }
  let world : World (List String) := ⟨before, answers, [], 0, "", []⟩
  let (code, report, world) : UInt32 × String × World (List String) :=
    match CommandLine.run around invocation world with
    | .ok () world => (0, "", world)
    | .error failure world => (1, failure.report, world)
  writeFiles before world.files
  IO.print world.stdout
  for warning in world.warnings do
    IO.eprintln s!" WARN {warning}"
  IO.eprint report
  return code

end SourceSlice.Program

/-- The `varslice` command. -/
def main (arguments : List String) : IO UInt32 :=
  match SourceSlice.CommandLine.parse? arguments with
  | some invocation => SourceSlice.Program.perform invocation
  | none => do
    IO.eprintln "usage: varslice [-v] (slice | list-runs | show-run) ..."
    return SourceSlice.CommandLine.usageCode.toUInt32
