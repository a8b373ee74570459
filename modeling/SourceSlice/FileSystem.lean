import SourceSlice.Association
import SourceSlice.Path
import SourceSlice.Results.Pages
import SourceSlice.Text.Utf8
/-!
# Files

A value that stands for the files a run can see: a tree of directories and files, and the directory that relative
paths start from.  Paths are walked step by step, and each way a walk can fail has its `FileFault`.

`node?_put` is the whole effect of a change: one place changes and all others stay.
-/
namespace SourceSlice

inductive FileFault where
  | notFound
  | permissionDenied
  | notADirectory
  | isADirectory
  | nameTooLong
  /-- The file may be run, but it is no program. -/
  | notAProgram
  /-- An argument is longer than a program can be given. -/
  | argumentsTooLong
  | nulInPath
  /-- A NUL character stands in the name of a program or in one of its arguments. -/
  | nulInArgument
  | notText
  /-- A text was expected, and this is where it stops being one. -/
  | notUtf8 (fault : Utf8.Fault)
deriving DecidableEq, Repr

def FileFault.message : FileFault → String
  | notFound => "No such file or directory (os error 2)"
  | permissionDenied => "Permission denied (os error 13)"
  | notADirectory => "Not a directory (os error 20)"
  | isADirectory => "Is a directory (os error 21)"
  | nameTooLong => "File name too long (os error 36)"
  | notAProgram => "Exec format error (os error 8)"
  | argumentsTooLong => "Argument list too long (os error 7)"
  | nulInPath => "file name contained an unexpected NUL byte"
  | nulInArgument => "nul byte found in provided data"
  | notText => "stream did not contain valid UTF-8"
  | notUtf8 fault => fault.message

inductive Content where
  | bytes (bytes : ByteArray)
  | program (bytes : ByteArray)
  | database (database : Database)

/-- The bytes of a file's content, as far as they can be told. -/
def Content.toBytes : Content → ByteArray
  | .bytes b => b
  | .program b => b
  | .database d => d.fileBytes

/-- What stands at a place. -/
inductive Node where
  | directory
  | file (content : Content) (executable : Bool)

def Node.isDirectory : Node → Bool
  | directory => true
  | file .. => false

/-- A place in the tree: the names that lead to it from the root, the last one first. -/
abbrev Location := List String

/-- The place that one step of a path spells, whether or not anything is there. -/
def Location.after (l : Location) : Path.Step → Location
  | .here => l
  | .up => l.tail
  | .name n => n :: l

structure FileSystem where
  nodes : List (Location × Node)
  current : Location

namespace FileSystem

/-- What stands at a place; the root is a directory. -/
def node? (fs : FileSystem) (l : Location) : Option Node :=
  if l = [] then some .directory else Association.get? l fs.nodes

def isDirectoryAt (fs : FileSystem) (l : Location) : Bool := (fs.node? l).any Node.isDirectory

def put (fs : FileSystem) (l : Location) (n : Node) : FileSystem :=
  { fs with nodes := (l, n) :: Association.erase l fs.nodes }

def longestName : Nat := 255

/-- The length that a path must stay below, in bytes. -/
def pathLimit : Nat := 4096

def step (fs : FileSystem) (l : Location) (s : Path.Step) : Except FileFault Location :=
  match fs.node? l with
  | none => .error .notFound
  | some (.file ..) => .error .notADirectory
  | some .directory => match s with
    | .here => .ok l
    | .up => .ok l.tail
    | .name n =>
      if longestName < n.utf8ByteSize then .error .nameTooLong
      else if (fs.node? (n :: l)).isNone then .error .notFound
      else .ok (n :: l)

def walk (fs : FileSystem) (l : Location) : List Path.Step → Except FileFault Location
  | [] => .ok l
  | s :: rest => match fs.step l s with
    | .ok l => walk fs l rest
    | .error fault => .error fault

def origin (fs : FileSystem) (p : Path) : Location := if p.isAbsolute then [] else fs.current

/-- The place that a path leads to by its names alone. -/
def spelledPlace (fs : FileSystem) (p : Path) : Location := p.steps.foldl Location.after (fs.origin p)

/-- The path's steps, unless no walk can be started for its text. -/
def stepsOf (p : Path) : Except FileFault (List Path.Step) :=
  if p.text.toList.contains '\x00' then .error .nulInPath
  else if p.text = "" then .error .notFound
  else if pathLimit ≤ p.text.utf8ByteSize then .error .nameTooLong
  else .ok p.steps

/-- **The place that a path names.** -/
def locate (fs : FileSystem) (p : Path) : Except FileFault Location :=
  match stepsOf p with
  | .ok steps => fs.walk (fs.origin p) steps
  | .error fault => .error fault

def find (fs : FileSystem) (p : Path) : Except FileFault Node :=
  match fs.locate p with
  | .ok l => match fs.node? l with
    | some n => .ok n
    | none => .error .notFound
  | .error fault => .error fault

def isFile (fs : FileSystem) (p : Path) : Bool := fs.find p matches .ok (.file ..)

/-- **The bytes of a file.** -/
def read (fs : FileSystem) (p : Path) : Except FileFault ByteArray :=
  match fs.find p with
  | .ok (.file content _) => .ok content.toBytes
  | .ok .directory => .error .isADirectory
  | .error fault => .error fault

def readText (fs : FileSystem) (p : Path) : Except FileFault String :=
  match fs.read p with
  | .ok bytes => match Utf8.decode bytes with
    | .ok text => .ok text
    | .error _ => .error .notText
  | .error fault => .error fault

/-- The place that a path names for writing; its file need not exist yet.  A slash at the end asks for a directory,
whatever stands there. -/
def locateForWriting (fs : FileSystem) (p : Path) : Except FileFault Location :=
  match stepsOf p with
  | .error fault => .error fault
  | .ok _ => match fs.walk (fs.origin p) p.spelled.dropLast with
    | .error fault => .error fault
    | .ok parent => match p.spelled.getLast?, fs.node? parent with
      | _, none => .error .notFound
      | _, some (.file ..) => .error .notADirectory
      | some (.name n), some .directory =>
        if p.isClosed then .error .isADirectory
        else if longestName < n.utf8ByteSize then .error .nameTooLong
        else if fs.isDirectoryAt (n :: parent) then .error .isADirectory
        else .ok (n :: parent)
      | _, some .directory => .error .isADirectory

def executableAt (fs : FileSystem) (l : Location) : Bool :=
  match fs.node? l with
  | some (.file _ executable) => executable
  | _ => false

/-- **The files after writing one**; a new file may not be run, an old one as before. -/
def write (fs : FileSystem) (p : Path) (bytes : ByteArray) : Except FileFault FileSystem :=
  match fs.locateForWriting p with
  | .ok l => .ok (fs.put l (.file (.bytes bytes) (fs.executableAt l)))
  | .error fault => .error fault

def erase (fs : FileSystem) (l : Location) : FileSystem :=
  { fs with nodes := fs.nodes.filter fun (k, _) => !l.isSuffixOf k }

def remove (fs : FileSystem) (p : Path) : Except FileFault FileSystem :=
  match fs.locate p with
  | .ok l => .ok (fs.erase l)
  | .error fault => .error fault

/-- The tree with a directory at a place and at every place above it. -/
def putDirectories (fs : FileSystem) : Location → FileSystem
  | [] => fs
  | n :: l =>
    let fs := fs.putDirectories l
    if fs.isDirectoryAt (n :: l) then fs else fs.put (n :: l) .directory

/-- The tree with something put where a path leads by its names alone, with all the directories it needs. -/
def install (fs : FileSystem) (p : Path) (n : Node) : FileSystem :=
  let l := fs.spelledPlace p
  if n.isDirectory then fs.putDirectories l else (fs.putDirectories l.tail).put l n

/-- **A change is seen at its own place and nowhere else.** -/
theorem node?_put (fs : FileSystem) (l k : Location) (n : Node) (hl : l ≠ []) :
    (fs.put l n).node? k = if k = l then some n else fs.node? k := by
  by_cases hk : k = l
  · subst hk; simp [node?, put, hl, Association.get?]
  · simp only [node?, put, Association.get?, if_neg (Ne.symm hk), if_neg hk, Association.get?_erase_of_ne hk]

end FileSystem

end SourceSlice
