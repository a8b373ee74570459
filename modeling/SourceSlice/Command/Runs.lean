import SourceSlice.Command.World
import SourceSlice.Interchange
/-!
# The commands that look at recorded runs

They open a results database that must be there, and print what it holds, for people or as JSON.
-/
namespace SourceSlice

/-- A run with its slices, as it is shown in JSON. -/
structure RunDetail where
  run : RunRecord
  output : BatchOutput
deriving DecidableEq, Repr

instance : Codec RunDetail where
  encode d := .record [("run", Codec.encode d.run), ("output", Codec.encode d.output)]
  decode? v := do
    let [run, output] ← Codec.fields? ["run", "output"] v | none
    return ⟨← run.required?, ← output.required?⟩

def RunRecord.summary (r : RunRecord) : String :=
  let labels := if r.labelled then "labelled" else "unlabelled"
  s!"  - #{r.id} {r.artifact} [{r.mode.name}] {r.sliceCount} slices, {labels} ({r.finishedAt})"

namespace BatchOutput

/-- The text of a slice, closed by a line's end unless it is empty. -/
def closed (slice : String) : String :=
  if slice = "" ∨ slice.toList.getLast? = some '\n' then slice else slice ++ "\n"

def shownSlice (i : Nat) (r : SliceResult) : String :=
  let heading := match r.label with
    | some label => s!"--- slice {i} [{label}] ---\n"
    | none => s!"--- slice {i} ---\n"
  heading ++ closed r.text

end BatchOutput

def RunDetail.shown (d : RunDetail) : String :=
  let hash := d.run.artifactHash.getD "-"
  s!"Slice run #{d.run.id}\n" ++
  s!"  Artifact: {d.run.artifact}\n" ++
  s!"  Hash: {hash}\n" ++
  s!"  Mode: {d.run.mode.name}\n" ++
  s!"  Started: {d.run.startedAt}\n" ++
  s!"  Finished: {d.run.finishedAt}\n" ++
  String.join (d.output.results.mapIdx BatchOutput.shownSlice)

def shownRuns (runs : List RunRecord) : String :=
  s!"Slice runs ({runs.length}):\n" ++
    if runs.isEmpty then "  (none)\n" else String.join (runs.map fun r => r.summary ++ "\n")

namespace Command

variable {σ : Type}

/-- The results database at a path, which must be a file. -/
def openExisting (db : Path) : Command σ Database := do
  let before ← files
  if !before.isFile db then fail none (.databaseMissing db)
  let handle ← ofStoring s!"Failed to open results database at {db.text}" (Handle.openAt db)
  return handle.database (← files)

/-- **The command that lists runs.** -/
def listRuns (db : Path) (json : Bool) : Command σ Unit := do
  let d ← openExisting db
  let runs ← ofExcept (some "Failed to list slice runs") .store d.listRuns
  if json then printLine (Codec.writeBroad runs) else print (shownRuns runs)

/-- **The command that shows a run.** -/
def showRun (db : Path) (id : Int64) (json : Bool) : Command σ Unit := do
  let d ← openExisting db
  let run ← ofExcept (some s!"Failed to load slice run {id}") .store (d.getRun id)
  let output ← ofExcept (some s!"Failed to load slices of run {id}") .store (d.loadOutput id)
  let detail : RunDetail := ⟨run, output⟩
  if json then printLine (Codec.writeBroad detail) else print detail.shown

end Command
end SourceSlice
