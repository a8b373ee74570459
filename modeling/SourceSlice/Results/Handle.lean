import SourceSlice.Results.Address
import SourceSlice.Results.Place
import SourceSlice.Results.Store
/-!
# Opened databases

A results database is kept in a file, or by its holder alone.  Opening one may change files even when it fails: a file
that was asked for is made before anything is known of it, and leftovers are cleared away.
-/
namespace SourceSlice

/-- Work on the files of databases, which may fail and changes the files either way. -/
abbrev Storing := EStateM StoreError FileSystem

inductive Handle where
  /-- Kept in the file at a place. -/
  | file (place : Location) (writable : Bool)
  /-- Kept by the holder. -/
  | memory (database : Database)
  /-- Of a file that nobody is taken to change: as it was when it was opened. -/
  | frozen (database : Database)

namespace Handle

def database (files : FileSystem) : Handle → Database
  | .file l _ => match files.node? l with
    | some (.file content _) => content.database?.getD .blank
    | _ => .blank
  | .memory d => d
  | .frozen d => d

def writable : Handle → Bool
  | .file _ writable => writable
  | .memory _ => true
  | .frozen _ => false

def refuse {α : Type} (detail : String) : Storing α := throw (.sql detail)

def orRefuse {α : Type} (detail : String) : Option α → Storing α
  | some a => pure a
  | none => refuse detail

def save (d : Database) : Handle → Storing Handle
  | .file l true => do
    set (← orRefuse "disk I/O error" ((← get).writeDatabase? l d))
    return .file l true
  | .memory _ => return .memory d
  | _ => refuse "attempt to write a readonly database"

/-- **Carries out statements**, which a handle for reading alone refuses.  What was for good before one failed stays. -/
def carryOut {α : Type} (h : Handle) (work : Statements α) : Storing (α × Handle) := do
  if !h.writable then refuse "attempt to write a readonly database"
  else
    let before := h.database (← get)
    match work ⟨before, none⟩ with
    | .ok a c => return (a, ← h.save c.committed)
    | .error error c =>
      if c.committed ≠ before then discard (h.save c.committed)
      throw error

/-- Changes a database by one statement. -/
def change {α : Type} (h : Handle) (f : Database → Except StoreError (α × Database)) : Storing (α × Handle) :=
  h.carryOut (Statements.execute f)

def insertRun (h : Handle) (run : NewRun) (output : BatchOutput) : Storing (Int64 × Handle) :=
  h.carryOut (Statements.insertRun run output)

/-- The handle of a database that has been brought to the current version; nothing is written where it has that. -/
def migrated (h : Handle) (d : Database) : Storing Handle :=
  match d.migrate with
  | .error error => throw error
  | .ok new => if d.version = 0 then h.save new else pure h

def openOwn (writable : Bool) : Storing Handle :=
  if writable then migrated (.memory .blank) .blank else refuse "attempt to write a readonly database"

/-- The file at the place of a database, made where it may be. -/
def contentAt (l : Location) (o : Opening) : Storing Content := do
  match (← get).node? l with
  | some (.file content _) => return content
  | some .directory => refuse "unable to open database file"
  | none =>
    if o.access = .create then
      modify fun files => files.put l (.file (.bytes ByteArray.empty) false)
      return .bytes ByteArray.empty
    else refuse "unable to open database file"

/-- Clears away what an interrupted change left beside a database. -/
def settle (l : Location) (unwritten writable : Bool) : Storing Unit := do
  set (← orRefuse "disk I/O error" ((← get).settleJournal l unwritten writable))
  set (← orRefuse "unable to open database file" ((← get).settleLog l unwritten writable))

/-- The handle of the database that was found in the file at a place. -/
def found (l : Location) (o : Opening) (d : Database) : Handle := if o.frozen then .frozen d else .file l o.writable

def openFile (p : Path) (o : Opening) : Storing Handle := do
  let before ← get
  let l ← orRefuse "unable to open database file" (before.databasePlace? p)
  if o.pattern.any fun p => !(before.find p matches .ok _) then refuse "disk I/O error"
  let content ← contentAt l o
  if !o.frozen then settle l content.isUnwritten o.writable
  let d ← orRefuse "file is not a database" content.database?
  migrated (found l o d) d

/-- **Opens the results database of a name**, and makes it where there is none. -/
def openAt (p : Path) : Storing Handle := do
  if p.text.toList.contains '\x00' then refuse "a path holds no NUL character"
  match Address.ofName? p.text with
  | none => refuse "the address is mistaken"
  | some (.own writable) => openOwn writable
  | some (.file p o) => openFile p o

def openMemory : Storing Handle := openOwn true

end Handle
end SourceSlice
