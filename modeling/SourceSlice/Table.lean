import SourceSlice.Criterion
import SourceSlice.FileSystem
import SourceSlice.SliceError
/-!
# Criteria tables

Reading a table is a walk over its bytes with five places to be in.  A field that starts with a quote runs to the
next single quote, a doubled quote in it standing for one; what follows that quote up to the comma belongs to the field
as it stands.  A line feed or a carriage return ends a record outside quotes, and empty lines are no records.

Every record is data, the first one too.  Records with other than four or five fields are dropped, but each field of
each record must be UTF-8.  A row names a file, a line, a variable and an entry point, and may end in a label.  Whether
it has one is decided when the row is read; whether it is a criterion, when it is sliced.
-/
namespace SourceSlice

namespace Table

abbrev Field := List UInt8

def comma : UInt8 := 0x2C
def quote : UInt8 := 0x22

def isEnd (b : UInt8) : Bool := b == 0x0A || b == 0x0D

inductive Place where
  /-- Before a record. -/
  | recordStart
  /-- Before a field. -/
  | fieldStart
  /-- In a field, outside quotes. -/
  | plain
  /-- Inside quotes. -/
  | quoted
  /-- After a quote inside quotes. -/
  | quoteSeen
deriving DecidableEq, Repr

/-- The records from the middle of one: the fields so far and the bytes of the field so far, each the last first. -/
def recordsFrom (place : Place) (fields : List Field) (field : Field) : List UInt8 → List (List Field)
  | [] => if place = .recordStart then [] else [(field.reverse :: fields).reverse]
  | b :: rest =>
    if place = .quoted then
      if b = quote then recordsFrom .quoteSeen fields field rest else recordsFrom .quoted fields (b :: field) rest
    else if place = .recordStart ∧ isEnd b then recordsFrom .recordStart fields field rest
    else if b = quote ∧ place = .quoteSeen then recordsFrom .quoted fields (quote :: field) rest
    else if b = quote ∧ place ≠ .plain then recordsFrom .quoted fields field rest
    else if b = comma then recordsFrom .fieldStart (field.reverse :: fields) [] rest
    else if isEnd b then (field.reverse :: fields).reverse :: recordsFrom .recordStart [] [] rest
    else recordsFrom .plain fields (b :: field) rest

/-- The bytes without the byte order mark at their start. -/
def dropMark : List UInt8 → List UInt8
  | 0xEF :: 0xBB :: 0xBF :: rest => rest
  | bytes => bytes

/-- **The records of a table.** -/
def records (bytes : List UInt8) : List (List Field) := recordsFrom .recordStart [] [] (dropMark bytes)

end Table

structure Row where
  file : String
  line : String
  varname : String
  entryPoint : String
  label : Option String
deriving DecidableEq, Repr

/-- **The row of a list of fields**: four of them, or five with a label. -/
def Row.ofFields? : List String → Option Row
  | [file, line, varname, entryPoint] => some ⟨file, line, varname, entryPoint, none⟩
  | [file, line, varname, entryPoint, label] => some ⟨file, line, varname, entryPoint, some label⟩
  | _ => none

/-- The criterion of a row: its file must be there and its line a line number. -/
def Row.criterion? (files : FileSystem) (r : Row) : Option Criterion :=
  if files.isFile ⟨r.file⟩ then
    (LineNumber.parse? r.line.toList).map fun line =>
      { file := ⟨r.file⟩, line, varname := r.varname, entryPoint := r.entryPoint }
  else none

namespace Table

def fieldText (f : Field) : Except Utf8.Fault String := Utf8.decode ⟨f.toArray⟩

def texts (records : List (List Field)) : Except Utf8.Fault (List (List String)) :=
  records.mapM fun r => r.mapM fieldText

/-- **The rows of a table.** -/
def rows (bytes : ByteArray) : Except Utf8.Fault (List Row) :=
  (texts (records bytes.data.toList)).map (·.filterMap Row.ofFields?)

/-- The rows of the table in a file.  A file that cannot be opened and one that cannot be read fail differently. -/
def read (files : FileSystem) (p : Path) : Except SliceError (List Row) :=
  match files.find p with
  | .error fault => .error (.tableUnreadable p fault)
  | .ok .directory => .error (.tableMalformed p FileFault.isADirectory.message)
  | .ok (.file content _) => match rows content.toBytes with
    | .ok rows => .ok rows
    | .error fault => .error (.tableMalformed p fault.message)

end Table
end SourceSlice
