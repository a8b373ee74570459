import SourceSlice.Results.Database
/-!
# The file of a database

A database file is a row of pages.  The first one opens with a header and holds the schema; each table has a page of
its own, and so has the index of the slices.  A page names the places of its rows from the top down and holds the rows
themselves from its end up, each a record: the kinds of its columns, then their contents.

`Database.fileBytes` is the file of a database that got all its rows by insertion, as long as the rows of each table
find room in one page (`Database.HasPages`).  `Database.ofFileBytes?` knows a file that others made by its header, as
long as there is nothing in its schema.
-/
namespace SourceSlice.Pages

def pageSize : Nat := 4096

def bigEndian : Nat → Nat → List UInt8
  | 0, _ => []
  | width + 1, n => UInt8.ofNat (n.shiftRight (8 * width)) :: bigEndian width n

/-- The groups of seven bits of a number before bytes that follow it, at most so many. -/
def groupsBefore : Nat → Nat → List UInt8 → List UInt8
  | 0, _, after => after
  | most + 1, n, after => if n = 0 then after else groupsBefore most (n / 128) (UInt8.ofNat (n % 128 + 128) :: after)

/-- A number in groups of seven bits, the highest first; each byte but the last has its top bit set. -/
def varint (n : Nat) : List UInt8 := groupsBefore 8 (n / 128) [UInt8.ofNat (n % 128)]

/-! ## Records -/

/-- A column of a record: the number of its kind, and its content. -/
structure Column where
  kind : Nat
  content : List UInt8

namespace Column

def null : Column := ⟨0, []⟩

def text (s : String) : Column := ⟨2 * s.utf8ByteSize + 13, s.toUTF8.data.toList⟩

def nullable (s : Option String) : Column := (s.map text).getD null

/-- The kinds of whole numbers, each with the bytes that it takes. -/
def widths : List (Nat × Nat) := [(1, 1), (2, 2), (3, 3), (4, 4), (5, 6)]

/-- A whole number, in as few bytes as it needs. -/
def integer (n : Int64) : Column :=
  let bits (width : Nat) : List UInt8 := bigEndian width (n.toInt % Nat.shiftLeft 1 (8 * width)).toNat
  if n = 0 then ⟨8, []⟩
  else if n = 1 then ⟨9, []⟩
  else match widths.find? fun (_, width) => n.toInt.natAbs < Nat.shiftLeft 1 (8 * width - 1) +
      (if n < 0 then 1 else 0) with
    | some (kind, width) => ⟨kind, bits width⟩
    | none => ⟨6, bits 8⟩

/-- A number of double precision: its sign, its exponent and its digits. -/
def real (x : Binary64) : Column :=
  let n := x.units.natAbs
  let e := n.log2 - 52
  ⟨7, bigEndian 8 ((if x.units < 0 then Nat.shiftLeft 1 63 else 0) + e.shiftLeft 52 + n.shiftRight e)⟩

def ofCell : Cell → Column
  | .number n => integer n
  | .real x => real x
  | .text s => text s

end Column

/-- A record: its kinds and their length, then the contents. -/
def record (columns : List Column) : List UInt8 :=
  let kinds := columns.flatMap fun c => varint c.kind
  varint (kinds.length + 1) ++ kinds ++ columns.flatMap (·.content)

def tableRow (number : Nat) (columns : List Column) : List UInt8 :=
  let r := record columns
  varint r.length ++ varint number ++ r

def indexRow (columns : List Column) : List UInt8 :=
  let r := record columns
  varint r.length ++ r

/-! ## Pages -/

/-- The places of rows that stand one below the other under a place. -/
def places (top : Nat) : List (List UInt8) → List Nat
  | [] => []
  | row :: rest => (top - row.length) :: places (top - row.length) rest

def page (kind : UInt8) (rows : List (List UInt8)) : List UInt8 :=
  let starts := places pageSize rows
  let front := [kind, 0, 0] ++ bigEndian 2 rows.length ++ bigEndian 2 (starts.getLast?.getD pageSize) ++ [0] ++
    starts.flatMap (bigEndian 2)
  let content := rows.reverse.flatten
  front ++ List.replicate (pageSize - front.length - content.length) 0 ++ content

/-- The kind of a page that holds rows of a table. -/
def tableKind : UInt8 := 13

/-- The kind of a page that holds rows of an index. -/
def indexKind : UInt8 := 10

/-! ## The schema -/

def runsSchema : String :=
  "CREATE TABLE slice_runs (\n" ++
  "                id            INTEGER PRIMARY KEY AUTOINCREMENT,\n" ++
  "                artifact      TEXT NOT NULL,\n" ++
  "                artifact_hash TEXT,\n" ++
  "                mode          TEXT NOT NULL,\n" ++
  "                started_at    TEXT NOT NULL,\n" ++
  "                finished_at   TEXT NOT NULL,\n" ++
  "                slice_count   INTEGER NOT NULL,\n" ++
  "                labelled      INTEGER NOT NULL DEFAULT 0\n" ++
  "            )"

def entriesSchema : String :=
  "CREATE TABLE slice_entries (\n" ++
  "                run_id   INTEGER NOT NULL REFERENCES slice_runs(id) ON DELETE CASCADE,\n" ++
  "                position INTEGER NOT NULL,\n" ++
  "                text     TEXT NOT NULL,\n" ++
  "                label    TEXT,\n" ++
  "                PRIMARY KEY (run_id, position)\n" ++
  "            )"

def magic : List UInt8 := "SQLite format 3\x00".toUTF8.data.toList

/-- The row of the schema for what has a page of its own. -/
def schemaRow (number : Nat) (kind name table : String) (root : Int64) (statement : Option String) : List UInt8 :=
  tableRow number [.text kind, .text name, .text table, .integer root, .nullable statement]

/-- The first page.  Its rows do not stand in their order, and eight bytes between them are free. -/
def firstPage (d : Database) : List UInt8 :=
  let runs := schemaRow 1 "table" "slice_runs" "slice_runs" 2 (some runsSchema)
  let sequence :=
    schemaRow 2 "table" "sqlite_sequence" "sqlite_sequence" 3 (some "CREATE TABLE sqlite_sequence(name,seq)")
  let entries := schemaRow 3 "table" "slice_entries" "slice_entries" 4 (some entriesSchema)
  let index := schemaRow 4 "index" "sqlite_autoindex_slice_entries_1" "slice_entries" 5 none
  let atRuns := pageSize - runs.length
  let atSequence := atRuns - sequence.length
  let gap := atSequence - 8
  let atIndex := gap - index.length
  let atEntries := atIndex - entries.length
  let changes := bigEndian 4 (d.lastId.toInt + 1).toNat
  let header := magic ++ bigEndian 2 pageSize ++ [1, 1, 0, 64, 32, 32] ++ changes ++
    bigEndian 4 5 ++ List.replicate 8 0 ++ bigEndian 4 2 ++ bigEndian 4 4 ++ List.replicate 8 0 ++ bigEndian 4 1 ++
    bigEndian 4 (d.version.toInt % Nat.shiftLeft 1 32).toNat ++ List.replicate 28 0 ++ changes ++ bigEndian 4 3046000
  let front := header ++ [tableKind] ++ bigEndian 2 gap ++ bigEndian 2 4 ++ bigEndian 2 atEntries ++ [0] ++
    [atRuns, atSequence, atEntries, atIndex].flatMap (bigEndian 2)
  front ++ List.replicate (atEntries - front.length) 0 ++ entries ++ index ++ [0, 0, 0, 8, 0, 0, 0, 0] ++
    sequence ++ runs

/-! ## The tables -/

def runColumns (r : RunRow) : List Column :=
  [.null, .text r.artifact, .nullable r.artifactHash, .text r.mode, .text r.startedAt, .text r.finishedAt,
    .ofCell r.sliceCount, .ofCell r.labelled]

def entryColumns (e : EntryRow) : List Column := [.integer e.run, .ofCell e.position, .text e.text, .nullable e.label]

/-- The pages after the first: the kind of each, and its rows. -/
def tables (d : Database) : List (UInt8 × List (List UInt8)) :=
  let sequence := if d.lastId = 0 then [] else [tableRow 1 [.text "slice_runs", .integer d.lastId]]
  [(tableKind, d.runRows.map fun r => tableRow r.id.toInt.toNat (runColumns r)),
    (tableKind, sequence),
    (tableKind, d.entryRows.mapIdx fun i e => tableRow (i + 1) (entryColumns e)),
    (indexKind, d.entryRows.mapIdx fun i e =>
      indexRow [.integer e.run, .ofCell e.position, .integer (Int64.ofNat (i + 1))])]

/-- The length that a row must not exceed to stand in one page. -/
def longestRow : Nat := 4061

/-- Whether rows find room in one page, with its front of eight bytes and two for each row. -/
def fit (rows : List (List UInt8)) : Bool :=
  rows.all (·.length ≤ longestRow) && rows.foldl (fun n row => n + row.length + 2) 8 ≤ pageSize

/-! ## Headers -/

/-- The byte at an offset; there are zeros after the end of a file. -/
def byteAt (b : ByteArray) (i : Nat) : Nat := (b[i]?.map UInt8.toNat).getD 0

/-- The number in some bytes, the highest first. -/
def numberAt (b : ByteArray) (i width : Nat) : Nat := (List.range width).foldl (fun n k => n * 256 + byteAt b (i + k)) 0

/-- The length that a header gives the pages of its file. -/
def pageSizeOf (b : ByteArray) : Nat := byteAt b 16 * 256 + byteAt b 17 * 65536

def pageSizes : List Nat := [512, 1024, 2048, 4096, 8192, 16384, 32768, 65536]

/-- Whether a file has all pages that its header counts; a count from before the last change does not hold. -/
def isComplete (b : ByteArray) : Bool :=
  numberAt b 24 4 ≠ numberAt b 92 4 || numberAt b 28 4 ≤ (b.size + pageSizeOf b - 1) / pageSizeOf b

def isDatabase (b : ByteArray) : Bool :=
  (b.extract 0 16).data.toList == magic && byteAt b 19 ≤ 2 && numberAt b 21 3 = 0x402020 &&
    pageSizes.contains (pageSizeOf b) && isComplete b && byteAt b 20 + 480 ≤ pageSizeOf b

/-- Whether tables can be added to a file: it may be written, its format is known, and its schema can be read. -/
def isOpenToTables (b : ByteArray) : Bool :=
  byteAt b 18 ≤ 2 && byteAt b 47 ≤ 4 && [5, 13].contains (byteAt b 100)

/-- Whether the first page has rows of the schema, or leads to them. -/
def hasSchema (b : ByteArray) : Bool := byteAt b 100 = 5 || (byteAt b 100 = 13 && numberAt b 103 2 ≠ 0)

end SourceSlice.Pages

namespace SourceSlice

/-- **The bytes of a database's file.** -/
def Database.fileBytes (d : Database) : ByteArray :=
  ⟨(Pages.firstPage d ++ (Pages.tables d).flatMap fun (kind, rows) => Pages.page kind rows).toArray⟩

/-- **Each table of a database finds room in one page.** -/
def Database.HasPages (d : Database) : Prop := ∀ table ∈ Pages.tables d, Pages.fit table.2

instance (d : Database) : Decidable d.HasPages :=
  inferInstanceAs (Decidable (∀ table ∈ Pages.tables d, Pages.fit table.2))

/-- **The database in a file** that was not made by this program.  One of version zero must be open to its tables.  Where
there are tables already, they are not read, and neither is the database. -/
def Database.ofFileBytes? (b : ByteArray) : Option Database :=
  let version := Int32.ofNat (Pages.numberAt b 60 4)
  if Pages.isDatabase b ∧ ¬ Pages.hasSchema b ∧ (version ≠ 0 ∨ Pages.isOpenToTables b) then
    some { Database.blank with version }
  else none

end SourceSlice
