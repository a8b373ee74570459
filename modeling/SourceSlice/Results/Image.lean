import SourceSlice.FileSystem
import SourceSlice.Json.Codec
/-!
# The bytes of a results database

A database that leaves the program is written as a signature and its JSON form, and known again by the signature.
-/
namespace SourceSlice

open Codec

instance : Codec Cell where
  encode
    | .number n => encode n
    | .real x => .array [encode (toString x.units)]
    | .text s => encode s
  decode?
    | .string s => s.map .text
    | .array [.string (some units)] => units.toInt?.map fun n => .real ⟨n⟩
    | v => (decode? v).map .number

instance : Codec RunRow where
  encode r := .array
    [encode r.id, encode r.artifact, encode r.artifactHash, encode r.mode, encode r.startedAt, encode r.finishedAt,
      encode r.sliceCount, encode r.labelled]
  decode?
    | .array [id, artifact, hash, mode, startedAt, finishedAt, count, labelled] => do
      return ⟨← decode? id, ← decode? artifact, ← decode? hash, ← decode? mode, ← decode? startedAt,
        ← decode? finishedAt, ← decode? count, ← decode? labelled⟩
    | _ => none

instance : Codec EntryRow where
  encode e := .array [encode e.run, encode e.position, encode e.text, encode e.label]
  decode?
    | .array [run, position, text, label] => do
      return ⟨← decode? run, ← decode? position, ← decode? text, ← decode? label⟩
    | _ => none

instance : Codec Foreign where
  encode f := .array [encode f.name, encode f.isIndex]
  decode?
    | .array [name, isIndex] => do return ⟨← decode? name, ← decode? isIndex⟩
    | _ => none

instance : Codec Database where
  encode d := .array [encode d.version.toInt64, encode d.runs, encode d.entries, encode d.lastId, encode d.others]
  decode?
    | .array [version, runs, entries, lastId, others] => do
      let version : Int64 ← decode? version
      return ⟨version.toInt32, ← decode? runs, ← decode? entries, ← decode? lastId, ← decode? others⟩
    | _ => none

/-- The bytes that open every image of a database; they are not text. -/
def Database.signature : ByteArray := "source slice results\x00".toUTF8.push 0xFF

/-- **The bytes that a database is written as.** -/
def Database.image (d : Database) : ByteArray := Database.signature ++ (Codec.write d).toUTF8

def startsWith (b : ByteArray) (mark : List UInt8) : Bool := (b.extract 0 mark.length).data.toList == mark

def Database.ofImage? (b : ByteArray) : Option Database :=
  let n := Database.signature.size
  if startsWith b Database.signature.data.toList then (String.fromUTF8? (b.extract n b.size)).bind Codec.read? else none

def isProgram (b : ByteArray) : Bool :=
  startsWith b [0x23, 0x21] || startsWith b [0x7F, 0x45, 0x4C, 0x46]

def Node.ofBytes (b : ByteArray) : Node :=
  match Database.ofImage? b with
  | some d => .file (.database d) false
  | none => if isProgram b then .file (.program b) true else .file (.bytes b) false

/-- The bytes that a file is written as. -/
def Content.image : Content → ByteArray
  | .bytes b => b
  | .program b => b
  | .database d => d.image

/-- The bytes of the file at a place, where one stands there. -/
def FileSystem.imageAt? (files : FileSystem) (l : Location) : Option (List UInt8) :=
  match files.node? l with
  | some (.file content _) => some content.image.data.toList
  | _ => none

end SourceSlice
