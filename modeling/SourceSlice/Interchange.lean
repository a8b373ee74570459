import SourceSlice.Batch.Output
import SourceSlice.Json.Codec
import SourceSlice.Results.Database
import SourceSlice.Selection
import SourceSlice.Settings
import SourceSlice.Table
/-!
# The JSON forms of results and settings

Each record is written with its fields in a fixed order.  Settings that name no engine and no database leave those
members out.
-/
namespace SourceSlice

open Codec

instance : Codec Direction where
  encode d := .text d.name
  decode? := choice? Direction.name [.backward, .forward]

instance : Codec SliceMode where
  encode m := .text m.name
  decode? := choice? SliceMode.name [.backward, .forward, .bidirectional]

instance : Codec Criterion where
  encode c := .record
    [("file", encode c.file), ("line", encode c.line), ("varname", encode c.varname),
      ("function", encode c.function), ("entry_point", encode c.entryPoint), ("direction", encode c.direction)]
  decode? v := do
    let [file, line, varname, function, entryPoint, direction] ←
      fields? ["file", "line", "varname", "function", "entry_point", "direction"] v | none
    return {
      file := ← file.required?, line := ← line.required?, varname := ← varname.required?,
      function := ← function.optional?, entryPoint := ← entryPoint.required?, direction := ← direction.required? }

/-- The names of a row's fields that it has with a label or without. -/
def Row.fieldNames : List String := ["file", "line", "varname", "entry_point"]

/-- The row whose fields are given, except for its label. -/
def Row.ofGiven? (label : Option String) : List Given → Option Row
  | [file, line, varname, entryPoint] => do
    return ⟨← file.required?, ← line.required?, ← varname.required?, ← entryPoint.required?, label⟩
  | _ => none

instance : Codec Row where
  encode r :=
    let common :=
      [("file", encode r.file), ("line", encode r.line), ("varname", encode r.varname),
        ("entry_point", encode r.entryPoint)]
    match r.label with
    | some label => .record [("WithLabel", .record (common ++ [("label", encode label)]))]
    | none => .record [("WithoutLabel", .record common)]
  decode?
    | .object [(some "WithLabel", v)] => do
      let given ← fields? (Row.fieldNames ++ ["label"]) v
      let label ← (given.getLast?).bind Given.required?
      Row.ofGiven? (some label) given.dropLast
    | .object [(some "WithoutLabel", v)] => do
      Row.ofGiven? none (← fields? Row.fieldNames v)
    | _ => none

instance : Codec SliceResult where
  encode r := .record [("text", encode r.text), ("label", encode r.label)]
  decode? v := do
    let [text, label] ← fields? ["text", "label"] v | none
    return ⟨← text.required?, ← label.optional?⟩

instance : Codec BatchOutput where
  encode o := .record [("code_slices", encode o.codeSlices), ("labels", encode o.labels)]
  decode? v := do
    let [codeSlices, labels] ← fields? ["code_slices", "labels"] v | none
    return ⟨← codeSlices.required?, ← labels.orElse? []⟩

instance : Codec LineSet where
  encode s := encode s.toList
  decode? v := (decode? v).map LineSet.ofList

instance : Codec Entry where
  encode e := .record [("file", encode e.file), ("lines", encode e.lines)]
  decode? v := do
    let [file, lines] ← fields? ["file", "lines"] v | none
    return ⟨← file.required?, ← lines.required?⟩

instance : Codec Selection where
  encode s := .record [("files", encode s.entries)]
  decode? v := do
    let [files] ← fields? ["files"] v | none
    return ⟨← files.required?⟩

instance : Codec EngineOptions where
  encode o := .record [("verify", encode o.verify)]
  decode? v := do
    let [verify] ← fields? ["verify"] v | none
    return ⟨← verify.required?⟩

/-- The member for a path that may be missing, which is left out then. -/
def pathMember (name : String) : Option Path → List (String × Json)
  | some p => [(name, encode p)]
  | none => []

def Settings.fieldNames : List String := ["engine_path", "default_entry", "verify", "output", "db"]

instance : Codec Settings where
  encode s := .record <|
    pathMember "engine_path" s.enginePath
      ++ [("default_entry", encode s.defaultEntry), ("verify", encode s.verify), ("output", encode s.output)]
      ++ pathMember "db" s.db
  decode? v := do
    let [enginePath, defaultEntry, verify, output, db] ← fields? Settings.fieldNames v | none
    return {
      enginePath := ← enginePath.orElse? Settings.standard.enginePath
      defaultEntry := ← defaultEntry.orElse? Settings.standard.defaultEntry
      verify := ← verify.orElse? Settings.standard.verify
      output := ← output.orElse? Settings.standard.output
      db := ← db.orElse? Settings.standard.db }

instance : Codec NewRun where
  encode r := .record
    [("artifact", encode r.artifact), ("artifact_hash", encode r.artifactHash), ("mode", encode r.mode),
      ("started_at", encode r.startedAt), ("finished_at", encode r.finishedAt)]
  decode? v := do
    let [artifact, hash, mode, startedAt, finishedAt] ←
      fields? ["artifact", "artifact_hash", "mode", "started_at", "finished_at"] v | none
    return ⟨← artifact.required?, ← hash.optional?, ← mode.required?, ← startedAt.required?,
      ← finishedAt.required?⟩

instance : Codec RunRecord where
  encode r := .record
    [("id", encode r.id), ("artifact", encode r.artifact), ("artifact_hash", encode r.artifactHash),
      ("mode", encode r.mode), ("started_at", encode r.startedAt), ("finished_at", encode r.finishedAt),
      ("slice_count", encode r.sliceCount), ("labelled", encode r.labelled)]
  decode? v := do
    let [id, artifact, hash, mode, startedAt, finishedAt, count, labelled] ←
      fields? ["id", "artifact", "artifact_hash", "mode", "started_at", "finished_at", "slice_count", "labelled"] v
      | none
    return ⟨← id.required?, ← artifact.required?, ← hash.optional?, ← mode.required?, ← startedAt.required?,
      ← finishedAt.required?, ← count.required?, ← labelled.required?⟩

end SourceSlice
