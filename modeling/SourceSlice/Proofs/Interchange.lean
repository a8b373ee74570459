import SourceSlice.Proofs.FileSystem.Tree
import SourceSlice.Proofs.Json.Lawful
import SourceSlice.Results.Store
import SourceSlice.Settings.Load
/-!
# Results and settings are read back

Each value with a JSON form is read back from it, and so is each file that holds one
(`results_and_settings_read_back`).  What was written to an output file is read back from it
(`BatchOutput.read_of_bytes`), for its JSON holds all of the output.  Settings leave out the paths that they do not
have; a path that is not given is none, so they are read back all the same.
-/
namespace SourceSlice

namespace BatchOutput

variable {files after : FileSystem} {p : Path} {o : BatchOutput}

def fileBytes (o : BatchOutput) : ByteArray := (Codec.writeBroad o).toUTF8

/-- **An output is read back from its bytes.** -/
theorem read_of_bytes (h : files.read p = .ok o.fileBytes) : BatchOutput.read files p = .ok o := by
  rw [BatchOutput.read, FileSystem.readText, h, fileBytes]
  dsimp only
  rw [Utf8.decode_toUTF8]
  dsimp only
  rw [Codec.read?_writeBroad]

theorem write_of_ok (h : o.write files p = .ok after) : files.write p o.fileBytes = .ok after := by
  unfold write at h
  change (files.write p o.fileBytes).mapError StoreError.io = .ok after at h
  cases hwrite : files.write p o.fileBytes with
  | ok written => rw [hwrite] at h; cases h; rfl
  | error fault => rw [hwrite] at h; cases h

theorem write_error {e : StoreError} (h : o.write files p = .error e) :
    ∃ fault, files.write p o.fileBytes = .error fault ∧ e = .io fault := by
  unfold write at h
  change (files.write p o.fileBytes).mapError StoreError.io = .error e at h
  cases hwrite : files.write p o.fileBytes with
  | ok written => rw [hwrite] at h; cases h
  | error fault => rw [hwrite] at h; cases h; exact ⟨fault, rfl, rfl⟩

end BatchOutput

namespace Codec

variable {α : Type} [Codec α] [LawfulCodec α]

/-! ## Single values -/

instance : LawfulCodec Bool where
  plain _ := trivial
  decode?_encode _ := rfl

theorem plain_integer {n : Int} (h : n.natAbs < 100000000000000000000) : (Json.integer n).Plain := by
  have hlength : (Nat.toDigits 10 n.natAbs).length ≤ 20 := (Nat.length_toDigits_le_iff (by decide) (by decide)).2 h
  exact hlength

theorem integer?_integer (n : Int) : integer? (.integer n) = some n := rfl

-- A reader's bound is never computed with: both sides are opened by name, up to the comparison.
instance : LawfulCodec UInt32 where
  plain n := plain_integer (by have := n.toNat_lt; omega)
  decode?_encode n := by
    have hlt := n.toNat_lt
    have hrange : 0 ≤ (n.toNat : Int) ∧ (n.toNat : Int) < 4294967296 := by omega
    have hencode : encode n = .integer n.toNat := rfl
    have hdecode : (decode? (encode n) : Option UInt32) = (integer? (encode n)).bind fun n =>
      if 0 ≤ n ∧ n < 4294967296 then some (UInt32.ofNat n.toNat) else none := rfl
    rw [hdecode, hencode, integer?_integer, Option.bind_some, if_pos hrange, Int.toNat_natCast, UInt32.ofNat_toNat]

instance : LawfulCodec UInt64 where
  plain n := plain_integer (by have := n.toNat_lt; omega)
  decode?_encode n := by
    have hlt := n.toNat_lt
    have hrange : 0 ≤ (n.toNat : Int) ∧ (n.toNat : Int) < 18446744073709551616 := by omega
    have hencode : encode n = .integer n.toNat := rfl
    have hdecode : (decode? (encode n) : Option UInt64) = (integer? (encode n)).bind fun n =>
      if 0 ≤ n ∧ n < 18446744073709551616 then some (UInt64.ofNat n.toNat) else none := rfl
    rw [hdecode, hencode, integer?_integer, Option.bind_some, if_pos hrange, Int.toNat_natCast, UInt64.ofNat_toNat]

instance : LawfulCodec Int64 where
  plain n := plain_integer (by have := n.le_toInt; have := n.toInt_lt; omega)
  decode?_encode n := by
    have hrange : Int64.minValue.toInt ≤ n.toInt ∧ n.toInt ≤ Int64.maxValue.toInt :=
      ⟨n.minValue_le_toInt, n.toInt_le⟩
    have hdecode : (decode? (encode n) : Option Int64)
        = if Int64.minValue.toInt ≤ n.toInt ∧ n.toInt ≤ Int64.maxValue.toInt then some (Int64.ofInt n.toInt) else none :=
      rfl
    rw [hdecode, if_pos hrange, Int64.ofInt_toInt]

instance : LawfulCodec LineNumber where
  plain n := plain_integer (by have := n.val.toNat_lt; unfold LineNumber.toNat; omega)
  decode?_encode n := by
    have hdecode : (decode? (encode n) : Option LineNumber)
        = if 0 ≤ (n.toNat : Int) then LineNumber.ofNat? (n.toNat : Int).toNat else none := rfl
    rw [hdecode, if_pos (Int.natCast_nonneg _), Int.toNat_natCast, LineNumber.ofNat?_toNat]

instance : LawfulCodec Path where
  plain _ := rfl
  decode?_encode _ := rfl

theorem lawfulCodec_option (h : ∀ a : α, encode a ≠ .null) : LawfulCodec (Option α) where
  plain
    | none => trivial
    | some a => LawfulCodec.plain a
  decode?_encode
    | none => rfl
    | some a => by
      have hdecode : (decode? (encode a) : Option (Option α)) = (decode? (encode a)).map some := by
        cases hv : encode a <;> first | exact absurd hv (h a) | rfl
      exact hdecode.trans (congrArg (Option.map some) (LawfulCodec.decode?_encode a))

instance : LawfulCodec (Option String) := lawfulCodec_option fun _ => nofun

instance : LawfulCodec (Option Path) := lawfulCodec_option fun _ => nofun

instance : LawfulCodec Direction where
  plain _ := rfl
  decode?_encode d := by cases d <;> rfl

instance : LawfulCodec SliceMode where
  plain _ := rfl
  decode?_encode m := by cases m <;> rfl

instance : LawfulCodec LineSet where
  plain s := LawfulCodec.plain s.toList
  decode?_encode s := by
    have hsame : LineSet.ofList s.toList = s := LineSet.ext_mem fun n => by
      rw [LineSet.ofList, LineSet.mem_insertMany, ← LineSet.mem_def]
      simp
    have hdecode : (decode? (encode s) : Option LineSet) = (decode? (encode s.toList)).map LineSet.ofList := rfl
    rw [hdecode, LawfulCodec.decode?_encode, Option.map_some, hsame]

/-! ## Records -/

instance : LawfulCodec Criterion where
  plain c := plain_record <| by simp [LawfulCodec.plain]
  decode?_encode c := by
    refine (bind_fields?
      [("file", encode c.file), ("line", encode c.line), ("varname", encode c.varname),
        ("function", encode c.function), ("entry_point", encode c.entryPoint), ("direction", encode c.direction)]
      _ (by simp)).trans ?_
    simp

def rowFields (r : Row) : List (String × Option Json) :=
  [("file", encode r.file), ("line", encode r.line), ("varname", encode r.varname),
    ("entry_point", encode r.entryPoint)]

instance : LawfulCodec Row where
  plain r := by
    obtain ⟨file, line, varname, entryPoint, _ | label⟩ := r
    · exact plain_record <| List.forall_mem_singleton.2 <| plain_record <| by simp [LawfulCodec.plain]
    · exact plain_record <| List.forall_mem_singleton.2 <| plain_record <| by simp [LawfulCodec.plain]
  decode?_encode r := by
    obtain ⟨file, line, varname, entryPoint, _ | label⟩ := r
    · refine (bind_fields? (rowFields ⟨file, line, varname, entryPoint, none⟩) _ (by simp [rowFields])).trans ?_
      simp [rowFields, Row.ofGiven?]
    · refine (bind_fields? (rowFields ⟨file, line, varname, entryPoint, none⟩ ++ [("label", some (encode label))]) _
        (by simp [rowFields])).trans ?_
      simp [rowFields, Row.ofGiven?]

instance : LawfulCodec SliceResult where
  plain r := plain_record <| by simp [LawfulCodec.plain]
  decode?_encode r := by
    refine (bind_fields? [("text", encode r.text), ("label", encode r.label)] _ (by simp)).trans ?_
    simp

instance : LawfulCodec Entry where
  plain e := plain_record <| by simp [LawfulCodec.plain]
  decode?_encode e := by
    refine (bind_fields? [("file", encode e.file), ("lines", encode e.lines)] _ (by simp)).trans ?_
    simp

instance : LawfulCodec Selection where
  plain s := plain_record <| by simp [LawfulCodec.plain]
  decode?_encode s := by
    refine (bind_fields? [("files", encode s.entries)] _ (by simp)).trans ?_
    simp

theorem orElse?_map {β : Type} [Codec β] [LawfulCodec (Option β)] (b : Option β) :
    (Given.ofField (b.map encode)).orElse? none = some b := by
  cases b with
  | none => rfl
  | some b => exact LawfulCodec.decode?_encode (some b)

def settingsFields (s : Settings) : List (String × Option Json) :=
  [("engine_path", s.enginePath.map encode), ("default_entry", encode s.defaultEntry),
    ("verify", encode s.verify), ("output", encode s.output), ("db", s.db.map encode)]

theorem encode_settings (s : Settings) : encode s = .record (members (settingsFields s)) := by
  obtain ⟨_ | engine, entry, verify, output, _ | db⟩ := s <;> rfl

instance : LawfulCodec Settings where
  plain s := by
    rw [encode_settings]
    refine plain_record fun m hm => ?_
    obtain ⟨f, hf, hfm⟩ := List.mem_filterMap.1 hm
    obtain ⟨v, hv, rfl⟩ := Option.map_eq_some_iff.1 hfm
    simp only [settingsFields, List.mem_cons, List.not_mem_nil, or_false] at hf
    rcases hf with rfl | rfl | rfl | rfl | rfl
    · obtain ⟨p, -, rfl⟩ := Option.map_eq_some_iff.1 hv
      exact LawfulCodec.plain p
    · cases hv; exact LawfulCodec.plain s.defaultEntry
    · cases hv; exact LawfulCodec.plain s.verify
    · cases hv; exact LawfulCodec.plain s.output
    · obtain ⟨p, -, rfl⟩ := Option.map_eq_some_iff.1 hv
      exact LawfulCodec.plain p
  decode?_encode s := by
    have hengine := orElse?_map s.enginePath
    have hdb := orElse?_map s.db
    rw [encode_settings]
    refine (bind_fields? (settingsFields s) _ (by simp [settingsFields])).trans ?_
    simp [settingsFields, Settings.standard, hengine, hdb]

instance : LawfulCodec NewRun where
  plain r := plain_record <| by simp [LawfulCodec.plain]
  decode?_encode r := by
    refine (bind_fields?
      [("artifact", encode r.artifact), ("artifact_hash", encode r.artifactHash), ("mode", encode r.mode),
        ("started_at", encode r.startedAt), ("finished_at", encode r.finishedAt)] _ (by simp)).trans ?_
    simp

instance : LawfulCodec RunRecord where
  plain r := plain_record <| by simp [LawfulCodec.plain]
  decode?_encode r := by
    refine (bind_fields?
      [("id", encode r.id), ("artifact", encode r.artifact), ("artifact_hash", encode r.artifactHash),
        ("mode", encode r.mode), ("started_at", encode r.startedAt), ("finished_at", encode r.finishedAt),
        ("slice_count", encode r.sliceCount), ("labelled", encode r.labelled)] _ (by simp)).trans ?_
    simp

/-! ## Texts and files -/

/-- The values of a type are read back from their records and from their texts. -/
def ReadBack (α : Type) [Codec α] : Prop :=
  ∀ a : α, decode? (encode a) = some a ∧ read? (write a) = some a ∧ read? (writeBroad a) = some a

theorem readBack : ReadBack α :=
  fun a => ⟨LawfulCodec.decode?_encode a, read?_write a, read?_writeBroad a⟩

end Codec

open Codec

variable {files : FileSystem} {p : Path} {text : String}

theorem Settings.load_of_bytes {s : Settings} (hextension : p.extension? = some "json")
    (hread : files.read p = .ok text.toUTF8) (htext : read? text = some s) : Settings.load files p = .ok s := by
  have hfile : files.readText p = .ok text := by
    rw [FileSystem.readText, hread]
    dsimp only
    rw [Utf8.decode_toUTF8]
  have hformat : Format.ofExtension? "json" = some .json := by decide
  rw [Settings.load, hfile, hextension]
  dsimp only [Option.getD_some]
  rw [hformat]
  dsimp only [parse]
  rw [htext]

theorem Settings.names_encode (s : Settings) : ∃ ms, encode s = .record ms ∧
    ms.map (·.1) = Settings.fieldNames.filter fun name =>
      (name ≠ "engine_path" ∨ s.enginePath.isSome) ∧ (name ≠ "db" ∨ s.db.isSome) := by
  obtain ⟨_ | engine, entry, verify, output, _ | db⟩ := s <;> exact ⟨_, rfl, by simp [pathMember, Settings.fieldNames]⟩

/-- **Results and settings are read back from what was written of them**: an output from its file, each value from its
record and from both of its texts, and settings from a JSON file, although they leave out the paths they do not have. -/
theorem results_and_settings_read_back :
    (∀ (o : BatchOutput) (files after : FileSystem) (p : Path),
      o.write files p = .ok after → BatchOutput.read after p = .ok o) ∧
    ReadBack BatchOutput ∧ ReadBack Selection ∧ ReadBack Criterion ∧ ReadBack Row ∧ ReadBack SliceResult ∧
    ReadBack Settings ∧ ReadBack NewRun ∧ ReadBack RunRecord ∧
    (∀ (s : Settings) (files : FileSystem) (p : Path) (text : String), p.extension? = some "json" →
      text = write s ∨ text = writeBroad s → files.read p = .ok text.toUTF8 → Settings.load files p = .ok s) ∧
    ∀ s : Settings, ∃ ms, encode s = .record ms ∧
      ms.map (·.1) = Settings.fieldNames.filter fun name =>
        (name ≠ "engine_path" ∨ s.enginePath.isSome) ∧ (name ≠ "db" ∨ s.db.isSome) := by
  refine ⟨fun o files after p hwrite => ?_, readBack, readBack, readBack, readBack, readBack, readBack, readBack,
    readBack, fun s files p text hextension htext hread => ?_, Settings.names_encode⟩
  · obtain ⟨l, -, -, -, -, hread⟩ := FileSystem.write_ok (BatchOutput.write_of_ok hwrite)
    exact BatchOutput.read_of_bytes hread
  · rcases htext with rfl | rfl
    · exact Settings.load_of_bytes hextension hread (read?_write s)
    · exact Settings.load_of_bytes hextension hread (read?_writeBroad s)

/-- One slice with a quote, a backslash, a control character and a character beyond 16 bits, and two labels. -/
theorem results_and_settings_read_back_two_labels :
    let o : BatchOutput := ⟨["\"\\\x01𝄞"], ["", "é"]⟩
    let s : Settings := { Settings.standard with db := some ⟨"r.db"⟩ }
    let files : FileSystem := ⟨[(["s.json"], .file (.bytes (write s).toUTF8) false)], []⟩
    ∃ after, o.write files ⟨"out.json"⟩ = .ok after ∧ BatchOutput.read after ⟨"out.json"⟩ = .ok o ∧
      Settings.load files ⟨"s.json"⟩ = .ok s := by
  intro o s files
  obtain ⟨houtput, -, -, -, -, -, -, -, -, hload, -⟩ := results_and_settings_read_back
  have hwrite : o.write files ⟨"out.json"⟩
      = .ok (files.put ["out.json"] (.file (.bytes (writeBroad o).toUTF8) false)) := rfl
  exact ⟨_, hwrite, houtput _ _ _ _ hwrite, hload s files _ _ (by decide) (.inl rfl) rfl⟩

end SourceSlice
