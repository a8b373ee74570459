import SourceSlice.Path
import SourceSlice.Text.Utf8
/-!
# Addresses of databases

A results database is named by the path of its file.  A name that starts with `file:` is an address: a path in which
bytes may be written with percent signs, and after a question mark options that say how the file is opened.  An empty
path and `:memory:` stand for a database that its holder keeps for itself.
-/
namespace SourceSlice

inductive Access where
  /-- It must be there, and is only read. -/
  | read
  /-- It must be there. -/
  | change
  /-- It is made where there is none. -/
  | create
  /-- It is kept by its holder. -/
  | own
deriving DecidableEq, Repr

/-- Whether an option may ask for an access after another one. -/
def Access.allows : Access → Access → Bool
  | _, own => true
  | own, _ => true
  | create, _ => true
  | change, access => access ≠ create
  | read, access => access = read

structure Opening where
  access : Access := .create
  /-- Whether nobody is taken to change the file, so that nothing beside it is looked at. -/
  frozen : Bool := false
  /-- A file that must be there, for a new file is to be like it. -/
  pattern : Option Path := none
deriving DecidableEq, Repr

def Opening.writable (o : Opening) : Bool := o.access ≠ .read && !o.frozen

/-- Where a database is. -/
inductive Address where
  /-- Its holder keeps it. -/
  | own (writable : Bool)
  | file (path : Path) (opening : Opening)
deriving DecidableEq, Repr

namespace Address

/-! ## The parts of an address -/

/-- An option: its name and its value. -/
abbrev Setting := String × String

/-- The text before the first of a character, and the text after it. -/
def halves (sep : Char) (s : List Char) : List Char × List Char := (Text.cutAt sep s).getD (s, [])

def digit? (c : Char) : Option Nat :=
  if c.isDigit then some (c.toNat - 48)
  else if 'a' ≤ c ∧ c ≤ 'f' then some (c.toNat - 87)
  else if 'A' ≤ c ∧ c ≤ 'F' then some (c.toNat - 55)
  else none

/-- The bytes of a part, in which a percent sign and two digits spell one; a zero byte ends the part. -/
def unescape : List Char → List UInt8
  | [] => []
  | '%' :: a :: b :: rest => match digit? a, digit? b with
    | some m, some n => if m * 16 + n = 0 then [] else UInt8.ofNat (m * 16 + n) :: unescape rest
    | _, _ => 37 :: unescape (a :: b :: rest)
  | c :: rest => c.toString.toUTF8.data.toList ++ unescape rest

def part (s : List Char) : String := Utf8.decodeLoosely ⟨(unescape s).toArray⟩

/-- The options of a query; those without a name do not count. -/
def settings (query : List Char) : List Setting :=
  let options := (Text.splitOn '&' query).map fun s => let (name, value) := halves '=' s; (part name, part value)
  options.filter (·.1 ≠ "")

/-- What follows the host of an address, which can only be this one. -/
def local? : List Char → Option (List Char)
  | '/' :: '/' :: s =>
    let host := s.takeWhile (· ≠ '/')
    if host = [] ∨ host = "localhost".toList then some (s.drop host.length) else none
  | s => some s

/-! ## The options -/

def access? : String → Option Access
  | "ro" => some .read
  | "rw" => some .change
  | "rwc" => some .create
  | "memory" => some .own
  | _ => none

def limit (access : Access) : Setting → Option Access
  | ("mode", value) => (access? value).filter access.allows
  | ("cache", value) => if value = "shared" ∨ value = "private" then some access else none
  | _ => some access

/-- The file systems there are; the last of them keeps its files to itself. -/
def systems : List String := ["unix", "unix-none", "unix-dotfile", "unix-excl", "memdb"]

/-- The number at the start of a text of digits; after `0x` they are of base sixteen.  One that does not fit 31 bits is
taken for zero. -/
def leadingNumber (s : List Char) : Nat :=
  let n := match s with
    | '0' :: x :: c :: rest =>
      if (x = 'x' ∨ x = 'X') ∧ (digit? c).isSome then
        ((c :: rest).map digit?).takeWhile Option.isSome |>.foldl (fun n d => n * 16 + d.getD 0) 0
      else Nat.ofDigitChars 10 (s.takeWhile Char.isDigit) 0
    | _ => Nat.ofDigitChars 10 (s.takeWhile Char.isDigit) 0
  if n < Nat.shiftLeft 1 31 then n else 0

/-- Whether the value of an option says yes; of a number its lowest eight bits say it. -/
def isYes (value : String) : Bool :=
  if value.toList.head?.any Char.isDigit then leadingNumber value.toList % 256 ≠ 0
  else ["on", "yes", "true"].contains value.toLower

def ofParts? (path : String) (settings : List Setting) : Option Address := do
  let access ← settings.foldlM limit .create
  let system := ((settings.filter (·.1 = "vfs")).getLast?.map (·.2)).getD "unix"
  let frozen := (settings.lookup "immutable").any isYes
  if !systems.contains system then none
  else if system = "memdb" then some (.own (access ≠ .read && !frozen))
  else if access = .own || path = "" || path = ":memory:" then some (.own (access ≠ .read))
  else some (.file ⟨path⟩ ⟨access, frozen, (settings.lookup "modeof").map Path.mk⟩)

/-- **The address that a name is**, unless it is a mistaken one. -/
def ofName? (name : String) : Option Address :=
  match name.toList with
  | 'f' :: 'i' :: 'l' :: 'e' :: ':' :: s => do
    let (path, query) := halves '?' (halves '#' (← local? s)).1
    ofParts? (part path) (settings query)
  | _ => ofParts? name []

end Address
end SourceSlice
