import SourceSlice.Command.World
import SourceSlice.Digest.Sha256
import SourceSlice.Results.Store
/-!
# The slicing command

The options and the settings file together make a `Plan`, which says all that matters for the run.  Carrying it out
writes nothing before every slice is there; then comes the output file, and after it the results database.
-/
namespace SourceSlice

structure SliceOptions where
  artifact : Path
  table : Option Path := none
  criterion : Option String := none
  entry : Option String := none
  forward : Bool := false
  bidirectional : Bool := false
  print : Bool := false
  output : Option Path := none
  db : Option Path := none
  engine : Option Path := none
  config : Option Path := none
  dbg : Bool := false
deriving DecidableEq, Repr

structure Plan where
  artifact : Path
  input : BatchInput
  mode : SliceMode
  engine : Path
  options : EngineOptions
  /-- Whether the slice is printed and no output file is written. -/
  print : Bool
  output : Path
  db : Option Path
deriving DecidableEq, Repr

namespace SliceOptions

/-- What the user is told about options that do not go together. -/
def warnings (o : SliceOptions) : List String :=
  (if o.bidirectional ∧ o.forward then ["--bidirectional given; --forward is ignored"] else []) ++
  (if o.table.isSome ∧ o.entry.isSome then
    ["criteria table given; --entry is ignored (each row names its entry point)"] else []) ++
  (if o.table.isSome ∧ o.print then
    ["cannot print when a criteria table is given; writing the output file instead"] else [])

/-- **The plan of a run.**  An option wins over the settings file, and for the engine that wins over the
environment. -/
def plan (o : SliceOptions) (s : Settings) (engineVariable : Option String) : Except SliceError Plan :=
  (BatchInput.choose o.table o.criterion (some (o.entry.getD s.defaultEntry))).map fun input =>
    { artifact := o.artifact
      input
      mode := .ofFlags o.forward o.bidirectional
      engine := Settings.engineOr (o.engine <|> s.enginePath) engineVariable
      options := { s.engineOptions with verify := s.engineOptions.verify || o.dbg }
      print := o.print && o.table.isNone
      output := o.output.getD s.output
      db := o.db <|> s.db }

end SliceOptions

def sha256File (files : FileSystem) (p : Path) : Except Failure String :=
  match files.find p with
  | .error fault => .error ⟨some s!"Failed to open artifact for hashing: {p.text}", .file fault⟩
  | .ok .directory => .error ⟨some s!"Failed to read artifact for hashing: {p.text}", .file .isADirectory⟩
  | .ok (.file content _) => .ok (Sha256.hex content.toBytes)

namespace Command

variable {σ : Type}

/-- The slicer of a plan; the engine is looked for among the files. -/
def slicerOf (around : Surroundings σ) (files : FileSystem) (p : Plan) : Slicer σ :=
  { engine := Engine.spawned files around.searchPath p.engine around.program, artifact := p.artifact, mode := p.mode,
    options := p.options }

def sliceInput (around : Surroundings σ) (p : Plan) : Command σ BatchOutput := fun w =>
  let after (s : Session σ) : World σ :=
    { w with engine := s.engine, calls := w.calls ++ s.calls.map fun c => (p.engine, c.request.args) }
  match (slicerOf around w.files p).run w.files p.input (Session.start w.engine) with
  | .ok output s => .ok output (after s)
  | .error error s => .error ⟨some "Slicing failed", .slicing error⟩ (after s)

def writeOutput (p : Plan) (output : BatchOutput) : Command σ Unit := do
  let written ← ofExcept (some s!"Failed to write slice output to {p.output.text}") .store
    (output.write (← files) p.output)
  setFiles written
  printLine s!"Sliced {output.size} criteria ({p.mode.name})"
  printLine s!"  Labels: {output.labels.length}"
  printLine s!"  Output: {p.output.text}"

/-- Prints the slice or writes the output file. -/
def deliver (p : Plan) (output : BatchOutput) : Command σ Unit :=
  if p.print then printLine (output.codeSlices.headD "") else writeOutput p output

/-- A result, with the times at which slicing began and ended. -/
structure Produced where
  output : BatchOutput
  startedAt : String
  finishedAt : String

/-- **Slices and delivers the result.** -/
def produce (around : Surroundings σ) (p : Plan) : Command σ Produced := do
  if !(← files).isFile p.artifact then fail none (.artifactMissing p.artifact)
  let startedAt ← now around
  let output ← sliceInput around p
  let finishedAt ← now around
  deliver p output
  return { output, startedAt, finishedAt }

/-- Records a run in a results database and gives its id. -/
def recordRun (db : Path) (p : Plan) (r : Produced) : Command σ Int64 := do
  let handle ← ofStoring s!"Failed to open results database at {db.text}" (Handle.openAt db)
  let hash ← match sha256File (← files) p.artifact with
    | .ok hash => pure hash
    | .error failure => throw failure
  let run : NewRun := ⟨p.artifact.text, some hash, p.mode, r.startedAt, r.finishedAt⟩
  let (id, _) ← ofStoring "Failed to record slice run" (handle.insertRun run r.output)
  return id

/-- **Carries a plan out.** -/
def execute (around : Surroundings σ) (p : Plan) : Command σ BatchOutput := do
  let r ← produce around p
  match p.db with
  | none => pure ()
  | some db =>
    let id ← recordRun db p r
    if !p.print then printLine s!"  Run id: {id} ({db.text})"
  return r.output

/-- **The slicing command.** -/
def slice (around : Surroundings σ) (o : SliceOptions) : Command σ BatchOutput := do
  let read := Settings.loadOrStandard (← files) o.config
  let settings ← ofExcept (some "Failed to load slicer config") .settings read
  o.warnings.forM warn
  let p ← ofExcept none .slicing (o.plan settings around.engineVariable)
  execute around p

end Command
end SourceSlice
