import SourceSlice.FileSystem
/-!
# Places of databases

The file of a database is found by the text of its path: `..` takes back the name before it, whether or not that name
leads anywhere.  Two more files may stand beside it: a journal, which is there while the database is being changed,
and a log.  What an interrupted change left of them is cleared away when the database is opened, and a directory in
their place bars the way.

A journal or a log may still hold pages of its database.  What these would make of the database is not known here, so it
is not opened (`Leftover.live`).
-/
namespace SourceSlice

/-- The length that the text of a database's place must not exceed, with that of its journal. -/
def longestPlace : Nat := 512

/-- The length of the text of a place, in bytes: a slash stands before each name. -/
def Location.length (l : Location) : Nat := l.foldl (fun n name => n + 1 + name.utf8ByteSize) 0

/-- What a journal adds to the name of its database. -/
def journalMark : String := "-journal"

/-- What a log adds to the name of its database. -/
def logMark : String := "-wal"

/-- The place beside a place whose name goes on with a mark. -/
def Location.beside (mark : String) : Location → Location
  | [] => []
  | name :: l => (name ++ mark) :: l

/-- The database that a file holds; an empty file holds one in which nothing has been made, and a single byte counts
for nothing. -/
def Content.database? : Content → Option Database
  | .database d => some d
  | .bytes b => if b.size ≤ 1 then some .blank else Database.ofFileBytes? b
  | .program _ => none

/-- Whether nothing was ever written to a file. -/
def Content.isUnwritten : Content → Bool
  | .bytes b => b.size ≤ 1
  | _ => false

/-- Whether a file is a database that others made, with tables that are not read here. -/
def Content.isUnread : Content → Bool
  | .bytes b => 1 < b.size && Pages.isDatabase b && Pages.hasSchema b
  | _ => false

/-- What stands in the place of a journal or a log; an empty file does not count. -/
inductive Leftover where
  | nothing
  | directory
  /-- A file whose first byte is zero, as a journal's is that needs no more care. -/
  | spent
  | file
  /-- A journal or a log that may hold pages of its database. -/
  | live
deriving DecidableEq, Repr

/-- How journals and logs begin that hold pages of a database. -/
def liveMarks : List (List UInt8) :=
  [[0xd9, 0xd5, 0x05, 0xf9, 0x20, 0xa1, 0x63, 0xd7], [0x37, 0x7f, 0x06, 0x82], [0x37, 0x7f, 0x06, 0x83]]

/-- What the bytes of a journal or a log come to. -/
def Leftover.ofBytes : List UInt8 → Leftover
  | [] => .nothing
  | b :: rest => if liveMarks.any (·.isPrefixOf (b :: rest)) then .live else if b = 0 then .spent else .file

namespace FileSystem

/-- One step of the path of a database; nothing stands below a file. -/
def databaseStep (files : FileSystem) (l : Location) : Path.Step → Option Location
  | .here => some l
  | .up => some l.tail
  | .name n =>
    if longestPlace < l.length + n.utf8ByteSize + 2 then none
    else match files.node? l with
      | some (.file ..) => none
      | some .directory => if longestName < n.utf8ByteSize then none else some (n :: l)
      | none => some (n :: l)

/-- **The place that the path of a database names**: it is not the root, and its directory is there. -/
def databasePlace? (files : FileSystem) (p : Path) : Option Location := do
  let l ← p.steps.foldlM (databaseStep files) (files.origin p)
  if l = [] ∨ longestPlace < l.length + journalMark.utf8ByteSize ∨ !files.isDirectoryAt l.tail then none
  else some l

/-- What is left over at a place. -/
def leftoverAt (files : FileSystem) (l : Location) : Leftover :=
  match files.node? l with
  | none => .nothing
  | some .directory => .directory
  | some (.file content _) => .ofBytes content.toBytes.data.toList

/-- The files after the journal of a database is dealt with, unless it stands in the way. -/
def settleJournal (files : FileSystem) (l : Location) (unwritten writable : Bool) : Option FileSystem :=
  let journal := l.beside journalMark
  match files.leftoverAt journal, unwritten with
  | .nothing, _ => some files
  | .directory, true => some files
  | .directory, false => none
  | _, true => some (if writable then files.erase journal else files)
  | .spent, false => some files
  | .file, false => if writable then some (files.erase journal) else none
  | .live, false => none

/-- The files after the log of a database is dealt with, unless it stands in the way. -/
def settleLog (files : FileSystem) (l : Location) (unwritten writable : Bool) : Option FileSystem :=
  let log := l.beside logMark
  match files.leftoverAt log with
  | .nothing => some files
  | .directory => none
  | .live => if unwritten then some (files.erase log) else none
  | _ => some (if writable ∨ unwritten then files.erase log else files)

/-- **The files after a database is written at a place**, unless its journal cannot be. -/
def writeDatabase? (files : FileSystem) (l : Location) (d : Database) : Option FileSystem :=
  let journal := l.beside journalMark
  if files.isDirectoryAt journal ∨ journal.any (longestName < ·.utf8ByteSize) then none
  else some ((files.erase journal).put l (.file (.database d) (files.executableAt l)))

end FileSystem
end SourceSlice
