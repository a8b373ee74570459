import SourceSlice.Proofs.Command.Agreement
import SourceSlice.Proofs.Results.Contents
/-!
# The hash of the artifact

A run does not take the hash of its artifact when the engine reads it, but when the output file is written and the
results database is open.  `Plan.hashed` is what stands at the artifact's place by then, and `slice_hashes` says that
the run is recorded with the hash of that.  It is the hash of what was sliced where neither of the two files is put in
the artifact's place (`Plan.SparesArtifact`); otherwise it is not (`hash_of_output_recorded`).

A hash is of bytes, so those of the artifact must be known (`Plan.ArtifactKnown`).  They are unless it is a database:
the file of one is laid out here only where this program wrote all of it and each table has one page.
-/
namespace SourceSlice

open Work FileSystem

variable {σ : Type} {files before middle after : FileSystem} {artifact content : Content} {output : BatchOutput}

theorem BatchOutput.isDatabase_fileBytes (output : BatchOutput) : Pages.isDatabase output.fileBytes = false := by
  obtain ⟨rest, hrest⟩ : ∃ rest, Json.spell .broad 0 (Codec.encode output) = '\x7b' :: rest := ⟨_, rfl⟩
  have hbytes : output.fileBytes.data.toList = 0x7b :: rest.flatMap String.utf8EncodeChar := by
    unfold BatchOutput.fileBytes Codec.writeBroad Json.renderBroad
    rw [hrest, String.toUTF8_eq_toByteArray, String.toByteArray_ofList, List.utf8Encode, List.toList_data_toByteArray]
    rfl
  have hmagic : (output.fileBytes.extract 0 16).data.toList ≠ Pages.magic := by
    rw [ByteArray.data_extract, Array.toList_extract, hbytes]
    intro h
    have hfirst : some 0x7b = Pages.magic.head? := congrArg List.head? h
    exact absurd hfirst (by decide +kernel)
  unfold Pages.isDatabase
  rw [beq_false_of_ne hmagic]
  rfl

namespace Content

def isForeign : Content → Bool
  | .bytes b => Pages.isDatabase b
  | _ => false

/-- **All bytes of a file are known.**  Those of a database are, if only this program has written it and each of its
tables has one page. -/
def BytesKnown : Content → Prop
  | .database d => d.Written ∧ d ≠ .blank ∧ d.HasPages
  | _ => True

theorem database?_of_bytes {b : ByteArray} {d : Database} (hforeign : isForeign (.bytes b) = false)
    (hd : database? (.bytes b) = some d) : d = .blank := by
  rw [database?] at hd
  split_ifs at hd
  · exact (Option.some.inj hd).symm
  · rw [Database.ofFileBytes?, if_neg fun hno => Bool.eq_false_iff.1 hforeign hno.1] at hd
    cases hd

theorem BytesKnown.opened (h : content.BytesKnown) (hforeign : content.isForeign = false) :
    content.opened.BytesKnown := by
  cases content with
  | program b => exact trivial
  | bytes b =>
    cases hd : database? (.bytes b) with
    | none =>
      rw [Content.opened, hd]
      exact trivial
    | some d =>
      obtain rfl := database?_of_bytes hforeign hd
      have hempty : Database.blank.migrate = .ok (Ledger.database []) := Ledger.migrate_blank
      have hzero : Database.blank.version = 0 := rfl
      rw [opened_of_migrate hd hempty, if_pos hzero]
      exact ⟨.opened .blank hempty, by decide, by decide +kernel⟩
  | database d =>
    have hversion : d.version ≠ 0 := by
      obtain hnew | ⟨ledger, -, rfl⟩ := h.1.cases
      · exact absurd hnew h.2.1
      · exact (by decide : Store.currentVersion ≠ 0)
    have hsame : (database d).opened = database d := opened_of_version_ne_zero fun found hfound => by
      obtain rfl : d = found := Option.some.inj hfound
      exact hversion
    rwa [hsame]

end Content

namespace Plan

variable {p : Plan}

/-- **What stands at the artifact's place when its hash is taken**: the output, where the output file is put there, or
the artifact; and where that is the results database, what opening it makes of it. -/
def hashed (p : Plan) (files : FileSystem) (output : BatchOutput) (artifact : Content) : Content :=
  let place := files.spelledPlace p.artifact
  let delivered := if p.print = false ∧ place = files.spelledPlace p.output then .bytes output.fileBytes else artifact
  if p.home? files = some place then delivered.opened else delivered

/-- **No other file is put in the artifact's place**: the output file is not, and if the artifact is the results
database it has its tables already. -/
structure SparesArtifact (p : Plan) (files : FileSystem) : Prop where
  output : p.print = false → files.spelledPlace p.artifact ≠ files.spelledPlace p.output
  database : p.home? files = some (files.spelledPlace p.artifact) →
    (files.databaseAt (files.spelledPlace p.artifact)).version ≠ 0

/-- **The bytes that a hash may be of are known**: those of the artifact, and those of the database that it becomes where
it is opened as one. -/
structure ArtifactKnown (p : Plan) (files : FileSystem) : Prop where
  bytes : ∀ content ∈ files.content? (files.spelledPlace p.artifact), content.BytesKnown
  own : p.home? files = some (files.spelledPlace p.artifact) →
    ∀ content ∈ files.content? (files.spelledPlace p.artifact), content.isForeign = false
  database : ∀ l, p.home? files = some l → files.Known l

theorem ArtifactKnown.hashed (h : p.ArtifactKnown files)
    (hartifact : files.content? (files.spelledPlace p.artifact) = some artifact) (output : BatchOutput) :
    (p.hashed files output artifact).BytesKnown := by
  have hknown := h.bytes artifact hartifact
  have houtput : Content.isForeign (.bytes output.fileBytes) = false := output.isDatabase_fileBytes
  unfold Plan.hashed
  dsimp only
  split_ifs with hhome
  · exact Content.BytesKnown.opened trivial houtput
  · exact hknown.opened (h.own hhome artifact hartifact)
  · exact trivial
  · exact hknown

theorem SparesArtifact.hashed_eq (h : p.SparesArtifact files)
    (hartifact : files.content? (files.spelledPlace p.artifact) = some artifact) (output : BatchOutput) :
    p.hashed files output artifact = artifact := by
  have hspared : ¬ (p.print = false ∧ files.spelledPlace p.artifact = files.spelledPlace p.output) :=
    fun ⟨hprint, hplace⟩ => h.output hprint hplace
  obtain ⟨executable, hfile⟩ := exists_file_of_content? hartifact
  unfold hashed
  dsimp only
  rw [if_neg hspared]
  split_ifs with hhome
  · refine Content.opened_of_version_ne_zero fun d hd => ?_
    have hversion := h.database hhome
    rwa [databaseAt_of_file hfile, hd] at hversion
  · rfl

end Plan

/-- **A run that was recorded**: the database was opened among some files, a hash was taken at the artifact's path in what
opening left, and a run with that hash was inserted.  What the database then gives for the run's id is this record. -/
def RecordedIn (p : Plan) (db : Path) (output : BatchOutput) (before after : FileSystem) (record : RunRecord) : Prop :=
  ∃ handle opened hash run handle', Handle.openAt db before = .ok handle opened ∧
    sha256File opened p.artifact = .ok hash ∧ run.artifactHash = some hash ∧
    handle.insertRun run output opened = .ok (record.id, handle') after ∧
    (handle'.database after).getRun record.id = .ok record

theorem RecordedIn.getRun {p : Plan} {db : Path} {l : Location} {record : RunRecord}
    (h : RecordedIn p db output before after record) (hl : before.homeOf? db = some l) :
    (after.databaseAt l).getRun record.id = .ok record := by
  obtain ⟨handle, opened, hash, run, handle', hopen, -, -, hinsert, hget⟩ := h
  obtain ⟨⟨path, o, -, rfl⟩, -⟩ := (Handle.openAt_ends hl).of_ok hopen
  obtain ⟨hhandle, -⟩ := (Handle.insertRun_ends_found o _ _ _).of_ok hinsert
  dsimp only at hhandle
  rwa [hhandle] at hget

theorem sha256File_eq_ok {p : Path} {hash : String} (h : sha256File files p = .ok hash) :
    ∃ content, files.content? (files.spelledPlace p) = some content ∧ hash = Sha256.hex content.toBytes := by
  unfold sha256File at h
  split at h
  next => cases h
  next => cases h
  next content executable hfind =>
    cases h
    exact ⟨content, content?_of_file (node?_of_find hfind), rfl⟩

namespace Command

variable {around : Surroundings σ} {o : SliceOptions} {p : Plan} {w : World σ} {db : Path}

theorem Delivers.content? (h : Delivers p before output middle) (k : Location) : middle.content? k
    = if p.print = false ∧ k = before.spelledPlace p.output then some (.bytes output.fileBytes)
      else before.content? k := by
  unfold Delivers at h
  split_ifs at h with hprint
  · rw [h, if_neg fun hno => Bool.eq_false_iff.1 hno.1 hprint]
  · rw [content?_write h, Bool.eq_false_iff.2 hprint]
    simp only [true_and]

theorem recordRun_hashes (r : Produced) (hcontent : w.files.content? (w.files.spelledPlace p.artifact) = some content) :
    Ends (recordRun db p r) w
      (fun _ after => ∃ record, RecordedIn p db r.output w.files after.files record ∧ record.artifact = p.artifact.text ∧
        record.artifactHash = some (Sha256.hex
          (if w.files.homeOf? db = some (w.files.spelledPlace p.artifact) then content.opened else content).toBytes))
      (fun _ _ => True) := by
  refine .bind ((ends_ofStoring (ends_self _ _)).imp ?_ fun _ _ _ => trivial)
  intro handle opened hopen
  obtain ⟨hcurrent, hcontents⟩ := (Handle.openAt_contents db).of_ok hopen
  refine .bind (ends_files.2 ?_)
  cases hhash : sha256File opened.files p.artifact with
  | error f => exact .bind trivial
  | ok hash =>
    obtain ⟨found, hfound, hfoundHash⟩ := sha256File_eq_ok hhash
    rw [spelledPlace_congr hcurrent] at hfound
    obtain rfl := hcontents _ _ _ hcontent hfound
    refine .bind (ends_pure.2 (.bind ((ends_ofStoring (ends_self _ _)).imp ?_ fun _ _ _ => trivial)))
    rintro ⟨id, handle'⟩ after hinsert
    let entered : Recorded := ⟨id, ⟨p.artifact.text, some hash, p.mode, r.startedAt, r.finishedAt⟩, r.output⟩
    have hget := (Database.getRun_insertRun (Handle.database_of_insertRun hinsert)).trans
      (Ledger.record_newRow entered)
    exact ⟨entered.record, ⟨handle, opened.files, hash, entered.run, handle', hopen, hhash, rfl, hinsert, hget⟩, rfl,
      congrArg some hfoundHash⟩

/-- **A run's record and where its hash is from**: these are the bytes that were sliced, and the run was recorded, after
its output was delivered, with the hash of `Plan.hashed`. -/
structure Provenance (p : Plan) (db : Path) (before : FileSystem) (output : BatchOutput) (after : FileSystem)
    (artifact : Content) (record : RunRecord) : Prop where
  standing : before.content? (before.spelledPlace p.artifact) = some artifact
  sliced : before.read p.artifact = .ok artifact.toBytes
  recorded : ∃ delivered, Delivers p before output delivered ∧ RecordedIn p db output delivered after record
  named : record.artifact = p.artifact.text
  hash : record.artifactHash = some (Sha256.hex (p.hashed before output artifact).toBytes)

theorem execute_hashes (around : Surroundings σ) (p : Plan) (w : World σ) : Ends (execute around p) w
    (fun output after => sliced around p w.files w.engine = .ok output ∧
      ∀ db, p.db = some db → ∃ artifact record, Provenance p db w.files output after.files artifact record)
    (fun _ _ => True) := by
  unfold execute
  refine .bind ((produce_ends around p w).imp ?_ fun _ _ _ => trivial)
  rintro r middle ⟨hready, hsliced, -, hdelivers⟩
  cases hdb : p.db with
  | none => exact ⟨hsliced, nofun⟩
  | some db =>
    obtain ⟨artifact, executable, hfind⟩ := exists_find_of_isFile hready.artifact
    have hstanding := content?_of_file (node?_of_find hfind)
    have hplace := spelledPlace_congr hdelivers.current p.artifact
    have hcontent := hdelivers.content? (w.files.spelledPlace p.artifact)
    rw [hstanding, ← apply_ite some, ← hplace] at hcontent
    refine .bind ((recordRun_hashes r hcontent).imp ?_ fun _ _ _ => trivial)
    rintro id after ⟨record, hrecorded, hnamed, hhash⟩
    rw [← hdelivers.home?_eq hdb, hplace] at hhash
    have hprovenance : ∀ name, some db = some name →
        ∃ artifact record, Provenance p name w.files r.output after.files artifact record := by
      rintro _ ⟨⟩
      have hread : w.files.read p.artifact = .ok artifact.toBytes := by rw [FileSystem.read, hfind]
      exact ⟨artifact, record, hstanding, hread, ⟨middle.files, hdelivers, hrecorded⟩, hnamed, hhash⟩
    -- the line with the id is printed or not; the files are the same
    dsimp only
    split_ifs
    · exact .bind ⟨hsliced, hprovenance⟩
    · exact ⟨hsliced, hprovenance⟩

theorem Provenance.getRun {l : Location} {record : RunRecord} (h : Provenance p db before output after artifact record)
    (hdb : p.db = some db) (hl : p.home? before = some l) : (after.databaseAt l).getRun record.id = .ok record := by
  obtain ⟨delivered, hdelivers, hrecorded⟩ := h.recorded
  exact hrecorded.getRun ((hdelivers.home?_eq hdb).symm.trans hl)

end Command
end SourceSlice
