import SourceSlice.Mode
import SourceSlice.Results.Binary64
/-!
# The results database

Two tables, one of runs and one of their slices, and a version number.  A column declared to hold a whole number may
be made to hold something else by someone who writes to the database by other means; `Cell` is what such a column can
hold.

A row of `entries` names its run and its position.  In a `Database.Sound` database that run is there, no two rows
name the same two, and no two runs have one id.

Others may have used the names of the tables for something else: `others` lists what bears a name and is no table of this
program.
-/
namespace SourceSlice

/-- What is recorded of a run when it has finished. -/
structure NewRun where
  artifact : String
  /-- The SHA-256 of the artifact's bytes, when it was taken. -/
  artifactHash : Option String
  mode : SliceMode
  startedAt : String
  finishedAt : String
deriving DecidableEq, Repr

structure RunRecord where
  id : Int64
  artifact : String
  artifactHash : Option String
  mode : SliceMode
  startedAt : String
  finishedAt : String
  sliceCount : UInt64
  labelled : Bool
deriving DecidableEq, Repr

/-- What a column of numbers holds. -/
inductive Cell where
  | number (n : Int64)
  /-- A number that is not whole or does not fit 64 bits. -/
  | real (x : Binary64)
  | text (s : String)
deriving DecidableEq, Repr

namespace Cell

/-- The number that a cell holds, in the units of `Binary64`. -/
def units? : Cell → Option Int
  | number n => some (Binary64.unitsOf n.toInt)
  | real x => some x.units
  | text _ => none

/-- Numbers come before texts, and each kind stands in its own order. -/
def le : Cell → Cell → Bool
  | number a, number b => decide (a ≤ b)
  | text a, text b => decide (a ≤ b)
  | a, b => match a.units?, b.units? with
    | some m, some n => decide (m ≤ n)
    | m, _ => m.isSome

/-- Whether two cells hold one text or one number. -/
def same : Cell → Cell → Bool
  | number a, number b => decide (a = b)
  | text a, text b => decide (a = b)
  | a, b => match a.units?, b.units? with
    | some m, some n => decide (m = n)
    | _, _ => false

end Cell

structure RunRow where
  id : Int64
  artifact : String
  artifactHash : Option String
  mode : String
  startedAt : String
  finishedAt : String
  sliceCount : Cell
  labelled : Cell
deriving DecidableEq, Repr

structure EntryRow where
  run : Int64
  position : Cell
  text : String
  label : Option String
deriving DecidableEq, Repr

/-- What others have given a name: an index, or a view or a table that lacks some column of this program's. -/
structure Foreign where
  name : String
  isIndex : Bool
deriving DecidableEq, Repr

/-- A results database.  A table that was never made is `none`. -/
structure Database where
  version : Int32
  runs : Option (List RunRow)
  entries : Option (List EntryRow)
  /-- The greatest id that a run was ever given on insertion. -/
  lastId : Int64
  others : List Foreign := []
deriving DecidableEq, Repr

namespace Database

/-- A database in which nothing has been made. -/
def blank : Database := ⟨0, none, none, 0, []⟩

def runsName : String := "slice_runs"

def entriesName : String := "slice_entries"

/-- What others have given a name, in which case does not matter. -/
def bearer? (d : Database) (name : String) : Option Foreign := d.others.find? (·.name.toLower = name)

/-- **The names of the tables are free**, or those of the tables themselves. -/
def NamesFree (d : Database) : Prop := d.bearer? runsName = none ∧ d.bearer? entriesName = none

instance (d : Database) : Decidable d.NamesFree := inferInstanceAs (Decidable (_ ∧ _))

/-- The rows of the runs, none when there is no table. -/
def runRows (d : Database) : List RunRow := d.runs.getD []

/-- The rows of the slices, none when there is no table. -/
def entryRows (d : Database) : List EntryRow := d.entries.getD []

/-- The greatest id in use or ever given, and zero. -/
def greatestId (d : Database) : Int := d.runRows.foldl (fun m r => max m r.id.toInt) d.lastId.toInt

/-- The id for the next run: one more than any id before it, as long as that fits 64 bits. -/
def nextId? (d : Database) : Option Int64 :=
  if d.greatestId < Int64.maxValue.toInt then some (Int64.ofInt (d.greatestId + 1)) else none

/-- The slices of a run in the order of their positions. -/
def entriesOf (d : Database) (id : Int64) : List EntryRow :=
  (d.entryRows.filter (·.run = id)).mergeSort fun a b => a.position.le b.position

/-- Every slice belongs to a run, and its position is its own. -/
structure Sound (d : Database) : Prop where
  run_mem : ∀ e ∈ d.entryRows, ∃ r ∈ d.runRows, r.id = e.run
  distinct : d.entryRows.Pairwise fun a b => a.run = b.run → a.position.same b.position = false
  ids_distinct : (d.runRows.map (·.id)).Nodup

end Database

end SourceSlice
