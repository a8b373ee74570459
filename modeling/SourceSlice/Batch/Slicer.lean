import SourceSlice.Association
import SourceSlice.Batch.Output
import SourceSlice.Engine.Process
import SourceSlice.Excerpt
import SourceSlice.SliceError
import SourceSlice.Table
/-!
# Running a batch

The criteria of a run come from a table, as rows, or as one composite text (`BatchInput`).  A slicer asks its engine
one question after the other and keeps each answer, so that no question with an answer is asked again.  What it keeps
are selections; texts are read from the files each time.

A run is a step from one `Session` to the next, and the session is there after a failure too: with the state of the
engine, the calls it has had and the answers kept so far.
-/
namespace SourceSlice

inductive BatchInput where
  | table (path : Path)
  | rows (rows : List Row)
  | adHoc (criterion entryPoint : String)
deriving DecidableEq, Repr

/-- **The input that two options choose**: exactly one of them must be given.  The entry point matters to a composite
text alone. -/
def BatchInput.choose (table : Option Path) (criterion entryPoint : Option String) :
    Except SliceError BatchInput :=
  match table, criterion with
  | some path, none => .ok (.table path)
  | none, some criterion => .ok (.adHoc criterion (entryPoint.getD defaultEntryPoint))
  | some _, some _ => .error (.invalidInvocation .bothInputs)
  | none, none => .error (.invalidInvocation .noInput)

/-- A call of the engine: what it was asked and what it answered. -/
structure Call where
  request : Request
  answer : Except SliceError String

/-- What changes while a slicer works. -/
structure Session (σ : Type) where
  engine : σ
  calls : List Call
  answers : List (Criterion.Slot × Selection)

def Session.start {σ : Type} (engine : σ) : Session σ := ⟨engine, [], []⟩

/-- Work that may fail and moves a session on either way. -/
abbrev Slicing (σ : Type) := EStateM SliceError (Session σ)

/-- An engine with all that stays the same during its work. -/
structure Slicer (σ : Type) where
  engine : Engine σ
  artifact : Path
  mode : SliceMode
  options : EngineOptions

/-- The result of a step that cannot change the session. -/
def Slicing.ofExcept {σ α : Type} : Except SliceError α → Slicing σ α
  | .ok a => pure a
  | .error error => throw error

def Slicer.request {σ : Type} (slicer : Slicer σ) (c : Criterion) : Request :=
  { criterion := c, artifact := slicer.artifact, options := slicer.options }

def selectionOf (report : String) : Except SliceError Selection :=
  (Report.parse report).mapError .malformedReport

namespace Slicer

variable {σ : Type}

def call (slicer : Slicer σ) (r : Request) : Slicing σ String := fun s =>
  let (answer, engine) := slicer.engine r s.engine
  let s := { s with engine, calls := s.calls ++ [⟨r, answer⟩] }
  match answer with
  | .ok text => .ok text s
  | .error error => .error error s

/-- Asks the engine for the selection of a criterion, whatever was answered before. -/
def invoke (slicer : Slicer σ) (c : Criterion) : Slicing σ Selection := do
  let text ← slicer.call (slicer.request c)
  Slicing.ofExcept (selectionOf text)

def keep (slot : Criterion.Slot) (answer : Selection) : Slicing σ Unit :=
  modify fun s => { s with answers := s.answers ++ [(slot, answer)] }

/-- **The selection of a criterion in a direction**: the answer that was kept, or a new one. -/
def ask (slicer : Slicer σ) (c : Criterion) (direction : Direction) : Slicing σ Selection := do
  let c := c.towards direction
  match Association.get? c.slot (← get).answers with
  | some answer => return answer
  | none =>
    let answer ← slicer.invoke c
    keep c.slot answer
    return answer

def selection (slicer : Slicer σ) (c : Criterion) : Slicing σ Selection :=
  match slicer.mode with
  | .backward => slicer.ask c .backward
  | .forward => slicer.ask c .forward
  | .bidirectional => do
    let backward ← slicer.ask c .backward
    let forward ← slicer.ask c .forward
    return backward.union forward

/-- **The text of a criterion's slice.** -/
def sliceText (slicer : Slicer σ) (files : FileSystem) (c : Criterion) : Slicing σ String := do
  let s ← slicer.selection c
  Slicing.ofExcept (s.excerpt files)

/-- The slices of rows; a row that is no criterion is passed over. -/
def collect (slicer : Slicer σ) (files : FileSystem) : List Row → Slicing σ (List SliceResult)
  | [] => return []
  | row :: rest => match row.criterion? files with
    | none => slicer.collect files rest
    | some c => do
      let text ← slicer.sliceText files c
      return ⟨text, row.label⟩ :: (← slicer.collect files rest)

def checkLabels (o : BatchOutput) : Except SliceError BatchOutput :=
  if o.labelsConsistent then .ok o else .error (.labelCountMismatch o.codeSlices.length o.labels.length)

/-- **Slices rows in order.**  The first failure ends the run. -/
def runRows (slicer : Slicer σ) (files : FileSystem) (rows : List Row) : Slicing σ BatchOutput := do
  let results ← slicer.collect files rows
  Slicing.ofExcept (checkLabels (.ofResults results))

def runCriterion (slicer : Slicer σ) (files : FileSystem) (c : Criterion) : Slicing σ BatchOutput := do
  let text ← slicer.sliceText files c
  return (∅ : BatchOutput).push ⟨text, none⟩

/-- **Slices an input.** -/
def run (slicer : Slicer σ) (files : FileSystem) : BatchInput → Slicing σ BatchOutput
  | .table path => do
    let rows ← Slicing.ofExcept (Table.read files path)
    slicer.runRows files rows
  | .rows rows => slicer.runRows files rows
  | .adHoc criterion entryPoint =>
    match Criterion.ofKey criterion entryPoint with
    | .error error => throw (.invalidInvocation (.criterion error))
    | .ok c => slicer.runCriterion files c

end Slicer

end SourceSlice
