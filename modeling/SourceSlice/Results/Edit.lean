import SourceSlice.Results.Numeral
import SourceSlice.Results.Store
/-!
# Changes made past the store

Others may write to a results database.  These are the changes they can make to single rows, with the rules that the
tables keep whoever writes: what may be missing, what must differ, and that a slice needs its run.
-/
namespace SourceSlice

/-- A value that others put into a column. -/
inductive Value where
  | number (n : Int64)
  | text (s : String)
deriving DecidableEq, Repr

namespace Value

/-- Whether a number is an `Int64`. -/
def fits (n : Int) : Bool := Int64.minValue.toInt ≤ n && n ≤ Int64.maxValue.toInt

/-- What a column of numbers keeps of a numeral.  What has a point or an exponent has double precision first, and of
such a number the two ends of the range do not count as whole. -/
def ofNumeral (n : Numeral) : Cell :=
  match n.integer? with
  | some m => if fits m then .number (Int64.ofInt m) else .real n.value
  | none => match n.value.whole? with
    | some m =>
      if Int64.minValue.toInt < m ∧ m < Int64.maxValue.toInt then .number (Int64.ofInt m) else .real n.value
    | none => .real n.value

/-- **What a column of numbers keeps of a value.** -/
def asNumber : Value → Cell
  | number n => .number n
  | text s => match Numeral.read? s.toList with
    | some n => ofNumeral n
    | none => .text s

/-- What a column of numbers keeps, when only whole numbers will do. -/
def asId? (v : Value) : Option Int64 :=
  match v.asNumber with
  | .number n => some n
  | _ => none

/-- What a column of texts keeps of a value: a number becomes its decimal text. -/
def asText : Value → String
  | number n => toString n
  | text s => s

end Value

namespace Database

inductive RunColumn where
  | id
  | artifact
  | artifactHash
  | mode
  | startedAt
  | finishedAt
  | sliceCount
  | labelled
deriving DecidableEq, Repr

def RunColumn.name : RunColumn → String
  | id => "id"
  | artifact => "artifact"
  | artifactHash => "artifact_hash"
  | mode => "mode"
  | startedAt => "started_at"
  | finishedAt => "finished_at"
  | sliceCount => "slice_count"
  | labelled => "labelled"

/-- The column of a name, in which case does not matter; a row's number is its id. -/
def RunColumn.ofName? (name : String) : Option RunColumn :=
  if ["rowid", "oid", "_rowid_"].contains name.toLower then some id
  else [id, artifact, artifactHash, mode, startedAt, finishedAt, sliceCount, labelled].find? (·.name = name.toLower)

inductive EntryColumn where
  | run
  | position
  | text
  | label
deriving DecidableEq, Repr

def EntryColumn.name : EntryColumn → String
  | run => "run_id"
  | position => "position"
  | text => "text"
  | label => "label"

/-- The column of a name, in which case does not matter. -/
def EntryColumn.ofName? (name : String) : Option EntryColumn :=
  [run, position, text, label].find? (·.name = name.toLower)

end Database

open Database (RunColumn EntryColumn)

/-- A row of a run with one column set; only the hash may be missing, and the id must be a number. -/
def RunRow.set (r : RunRow) : RunColumn → Option Value → Option RunRow
  | .id, some v => v.asId?.map fun n => { r with id := n }
  | .artifact, some v => some { r with artifact := v.asText }
  | .artifactHash, v => some { r with artifactHash := v.map Value.asText }
  | .mode, some v => some { r with mode := v.asText }
  | .startedAt, some v => some { r with startedAt := v.asText }
  | .finishedAt, some v => some { r with finishedAt := v.asText }
  | .sliceCount, some v => some { r with sliceCount := v.asNumber }
  | .labelled, some v => some { r with labelled := v.asNumber }
  | _, none => none

/-- A row of a slice with one column set; only the label may be missing. -/
def EntryRow.set (e : EntryRow) : EntryColumn → Option Value → Option EntryRow
  | .run, some v => v.asId?.map fun n => { e with run := n }
  | .position, some v => some { e with position := v.asNumber }
  | .text, some v => some { e with text := v.asText }
  | .label, v => some { e with label := v.map Value.asText }
  | _, none => none

namespace Database

/-- The list with the first member that passes a test replaced. -/
def replaceFirst {α : Type} (p : α → Bool) (new : α) : List α → List α
  | [] => []
  | a :: rest => if p a then new :: rest else a :: replaceFirst p new rest

/-- Works on the runs, which fails where there is no table of them. -/
def onRuns {α : Type} (d : Database) (f : List RunRow → Except StoreError α) : Except StoreError α :=
  match d.runs with
  | none => .error (.sql s!"no such table: {runsName}")
  | some runs => f runs

/-- Works on the slices, which fails where there is no table of them. -/
def onEntries {α : Type} (d : Database) (f : List EntryRow → Except StoreError α) : Except StoreError α :=
  match d.entries with
  | none => .error (.sql s!"no such table: {entriesName}")
  | some entries => f entries

/-- **Sets a column of a run**, and says how many rows that was. -/
def setRun (d : Database) (id : Int64) (column : RunColumn) (value : Option Value) :
    Except StoreError (Nat × Database) := d.onRuns fun runs =>
  match runs.find? (·.id = id) with
  | none => .ok (0, d)
  | some row => match row.set column value with
    | none => .error (.sql s!"the column {column.name} does not take this value")
    | some new =>
      if new.id ≠ id ∧ (runs.any (·.id = new.id) ∨ d.entryRows.any (·.run = id)) then
        .error (.sql "the id of this run cannot change")
      else .ok (1, { d with runs := some (replaceFirst (·.id = id) new runs) })

/-- **Sets a column of a slice**, and says how many rows that was. -/
def setEntry (d : Database) (id : Int64) (position : Cell) (column : EntryColumn) (value : Option Value) :
    Except StoreError (Nat × Database) := d.onEntries fun entries =>
  match entries.find? (isEntry id position) with
  | none => .ok (0, d)
  | some row => match row.set column value with
    | none => .error (.sql s!"the column {column.name} does not take this value")
    | some new =>
      if ¬ d.runRows.any (·.id = new.run) then .error (.sql "a slice needs its run")
      else if entries.any fun e => !isEntry id position e && isEntry new.run new.position e then
        .error (.sql "the position is taken")
      else .ok (1, { d with entries := some (replaceFirst (isEntry id position) new entries) })

/-- The database with another version; a number that does not fit 32 bits is taken for zero. -/
def setVersion (d : Database) (n : Int) : Database :=
  { d with version := if Int32.minValue.toInt ≤ n ∧ n ≤ Int32.maxValue.toInt then Int32.ofInt n else 0 }

/-- Removes a run with its slices, and says whether it was there. -/
def deleteRun (d : Database) (id : Int64) : Except StoreError (Nat × Database) := d.onRuns fun runs =>
  .ok (if runs.any (·.id = id) then 1 else 0,
    { d with runs := some (runs.filter (·.id ≠ id)), entries := d.entries.map (·.filter (·.run ≠ id)) })

def deleteEntry (d : Database) (id : Int64) (position : Cell) : Except StoreError (Nat × Database) :=
  d.onEntries fun entries =>
    .ok (entries.countP (isEntry id position),
      { d with entries := some (entries.filter fun e => !isEntry id position e) })

def countEntries (d : Database) (id : Int64) : Except StoreError Nat :=
  d.onEntries fun entries => .ok (entries.countP (·.run = id))

end Database
end SourceSlice
