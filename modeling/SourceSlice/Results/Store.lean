import SourceSlice.Batch.Output
import SourceSlice.FileSystem
import SourceSlice.Interchange
import SourceSlice.Results.Database
/-!
# The store of results

Runs are recorded in a results database, each with its slices and labels at their positions, and read back from it.
The output of a run is also written to a file of its own, as broad JSON for other tools, and read back from it.
Opening brings a database to the current version first; one that is newer is refused.
-/
namespace SourceSlice

inductive StoreError where
  | sql (detail : String)
  | io (fault : FileFault)
  | json (detail : String)
  | unsupportedVersion (found : Int32)
  | runNotFound (id : Int64)
deriving DecidableEq, Repr

namespace Store

def oldestVersion : Int32 := 0

def currentVersion : Int32 := 1

end Store

def StoreError.message : StoreError → String
  | sql detail => s!"SQLite error: {detail}"
  | io fault => s!"I/O error: {fault.message}"
  | json detail => s!"JSON error: {detail}"
  | unsupportedVersion found =>
    s!"Unsupported schema version {found}; supported range is {Store.oldestVersion}..={Store.currentVersion}"
  | runNotFound id => s!"No slice run with id {id}"

namespace Database

/-- A table that is made unless there is one.  Another's table or view of that name is left to stand for it, but an index
bars the name. -/
def makeTable {α : Type} (d : Database) (name : String) : Option (List α) → Except StoreError (Option (List α))
  | some rows => .ok (some rows)
  | none => match d.bearer? name with
    | none => .ok (some [])
    | some bearer => if bearer.isIndex then .error (.sql s!"there is already an index named {name}") else .ok none

/-- **The database as it is after opening.**  A version above the current one is refused; version zero gets the tables
it lacks. -/
def migrate (d : Database) : Except StoreError Database :=
  if Store.currentVersion < d.version then .error (.unsupportedVersion d.version)
  else if d.version = 0 then do
    let runs ← d.makeTable runsName d.runs
    let entries ← d.makeTable entriesName d.entries
    return { d with version := Store.currentVersion, runs, entries }
  else .ok d

def newRow (id : Int64) (run : NewRun) (output : BatchOutput) : RunRow :=
  ⟨id, run.artifact, run.artifactHash, run.mode.name, run.startedAt, run.finishedAt,
    .number (Int64.ofNat output.codeSlices.length), .number (if output.labels.isEmpty then 0 else 1)⟩

def newEntry (id : Int64) (i : Nat) (r : SliceResult) : EntryRow := ⟨id, .number (Int64.ofNat i), r.text, r.label⟩

def newEntries (id : Int64) (output : BatchOutput) : List EntryRow := output.results.mapIdx (newEntry id)

/-! ## Statements -/

/-- The statement that adds the row of a run, and gives its id.  No output has more slices than 64 bits can count. -/
def insertRow (run : NewRun) (output : BatchOutput) (d : Database) : Except StoreError (Int64 × Database) :=
  match d.runs, d.nextId? with
  | none, _ => .error (.sql s!"no such table: {runsName}")
  | _, none => .error (.sql "database or disk is full")
  | some runs, some id =>
    if Int64.maxValue.toInt < output.codeSlices.length then .error (.sql "database or disk is full")
    else .ok (id, { d with runs := some (runs ++ [newRow id run output]), lastId := id })

/-- What is checked when the statement for slices is made ready, also where there is no slice. -/
def prepareEntries (d : Database) : Except StoreError (Unit × Database) :=
  if d.entries.isNone then .error (.sql s!"no such table: {entriesName}") else .ok ((), d)

/-- Whether a row is the slice of a run at a position. -/
def isEntry (id : Int64) (position : Cell) (e : EntryRow) : Bool := e.run = id && e.position.same position

/-- The statement that adds the row of a slice, which needs its run and a position of its own. -/
def insertEntry (e : EntryRow) (d : Database) : Except StoreError (Unit × Database) :=
  match d.entries with
  | none => .error (.sql s!"no such table: {entriesName}")
  | some entries =>
    if entries.any (isEntry e.run e.position) then .error (.sql "the position is taken")
    else if ¬ d.runRows.any (·.id = e.run) then .error (.sql "a slice needs its run")
    else .ok ((), { d with entries := some (entries ++ [e]) })

end Database

/-- A connection to a database: what it holds for good, and the copy that a transaction works on. -/
structure Connection where
  committed : Database
  working : Option Database := none

/-- **Statements one after the other.**  One that fails leaves what those before it did. -/
abbrev Statements := EStateM StoreError Connection

namespace Statements

variable {α : Type}

/-- One statement does what it is for, or nothing.  Outside of a transaction that is for good at once. -/
def execute (f : Database → Except StoreError (α × Database)) : Statements α := fun c =>
  match f (c.working.getD c.committed) with
  | .error e => .error e c
  | .ok (a, d) => .ok a (if c.working.isSome then { c with working := some d } else { c with committed := d })

def begin : Statements Unit := fun c =>
  if c.working.isSome then .error (.sql "a transaction is open") c else .ok () { c with working := some c.committed }

def commit : Statements Unit := fun c =>
  match c.working with
  | none => .error (.sql "no transaction is open") c
  | some d => .ok () ⟨d, none⟩

def rollback : Statements Unit := modify fun c => { c with working := none }

/-- **Statements in a transaction**, which is rolled back when one of them fails. -/
def transaction (work : Statements α) : Statements α := do
  begin
  try
    let a ← work
    commit
    pure a
  catch e =>
    rollback
    throw e

/-- The row of a run and the rows of its slices; the run's id is given. -/
def insertRows (run : NewRun) (output : BatchOutput) : Statements Int64 := do
  let id ← execute (Database.insertRow run output)
  execute Database.prepareEntries
  (Database.newEntries id output).forM fun e => execute (Database.insertEntry e)
  return id

/-- **Records a run and its slices**, and gives the run's id. -/
def insertRun (run : NewRun) (output : BatchOutput) : Statements Int64 := transaction (insertRows run output)

end Statements

namespace Database

/-- What recording a run makes of a database. -/
def insertRun (d : Database) (run : NewRun) (output : BatchOutput) : Except StoreError (Int64 × Database) :=
  match Statements.insertRun run output ⟨d, none⟩ with
  | .ok id c => .ok (id, c.committed)
  | .error e _ => .error e

/-- A run as it is listed; its columns must hold what they were declared for. -/
def record (r : RunRow) : Except StoreError RunRecord :=
  match SliceMode.ofName? r.mode, r.sliceCount, r.labelled with
  | none, _, _ => .error (.sql s!"unknown mode {r.mode}")
  | some mode, .number count, .number labelled =>
    .ok ⟨r.id, r.artifact, r.artifactHash, mode, r.startedAt, r.finishedAt, count.toUInt64, labelled != 0⟩
  | _, .number _, _ => .error (.sql "labelled is no integer")
  | _, _, _ => .error (.sql "slice_count is no integer")

/-- **All runs** in the order of their ids. -/
def listRuns (d : Database) : Except StoreError (List RunRecord) :=
  match d.runs with
  | none => .error (.sql s!"no such table: {runsName}")
  | some runs => (runs.mergeSort fun a b => decide (a.id ≤ b.id)).mapM record

def getRun (d : Database) (id : Int64) : Except StoreError RunRecord :=
  match d.runs with
  | none => .error (.sql s!"no such table: {runsName}")
  | some runs => match runs.find? (·.id = id) with
    | none => .error (.runNotFound id)
    | some row => record row

/-- **The slices and labels of a run** in the order of their positions. -/
def loadOutput (d : Database) (id : Int64) : Except StoreError BatchOutput := do
  let _ ← d.getRun id
  match d.entries with
  | none => .error (.sql s!"no such table: {entriesName}")
  | some _ => return ⟨(d.entriesOf id).map (·.text), (d.entriesOf id).filterMap (·.label)⟩

end Database

/-! ## The output file -/

namespace BatchOutput

/-- **Writes an output to a file.** -/
def write (o : BatchOutput) (files : FileSystem) (p : Path) : Except StoreError FileSystem :=
  (files.write p (Codec.writeBroad o).toUTF8).mapError .io

/-- **Reads an output from a file.** -/
def read (files : FileSystem) (p : Path) : Except StoreError BatchOutput :=
  match files.readText p with
  | .error fault => .error (.io fault)
  | .ok text => match Codec.read? text with
    | some o => .ok o
    | none => .error (.json "not the output of a run")

end BatchOutput
end SourceSlice
