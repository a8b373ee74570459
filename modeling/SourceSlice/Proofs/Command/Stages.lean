import SourceSlice.Command.Slice
import SourceSlice.Proofs.Batch.Faults
import SourceSlice.Proofs.Batch.Session
import SourceSlice.Proofs.Results.Opening
import SourceSlice.Proofs.Interchange
/-!
# The stages of the slicing command

A run prepares, slices, writes the output file and records what it did, in this order, and the cause of a failure tells
the stage that it failed in (`Cause.stage`).  Each part of the command has one lemma that says how it ends and what it
leaves: `sliceInput_ends`, `produce_ends`, `recordRun_ends`.
-/
namespace SourceSlice

open Work

variable {σ α : Type}

inductive Stage where
  /-- Settings, options, artifact and input are looked at. -/
  | preparing
  /-- The engine is asked and the sources are read. -/
  | slicing
  /-- The output file is written. -/
  | writing
  /-- The results database is opened and the run is recorded. -/
  | recording
deriving DecidableEq

/-- **The stage in which a run fails for a cause.** -/
def Cause.stage : Cause → Stage
  | settings _ => .preparing
  | artifactMissing _ => .preparing
  | databaseMissing _ => .preparing
  | slicing error => if error.isOfInput then .preparing else .slicing
  | store error => if error.isOfDatabase then .recording else .writing
  | file _ => .recording

/-- **Whether slicing can begin**: the artifact is a regular file and the criteria can be read. -/
structure Plan.Ready (p : Plan) (files : FileSystem) : Prop where
  artifact : files.isFile p.artifact = true
  input : p.input.Readable files

structure World.Alike (v w : World σ) : Prop where
  files : w.files = v.files
  engine : w.engine = v.engine
  calls : w.calls = v.calls

namespace Command

variable {around : Surroundings σ} {w : World σ}

theorem ends_ofStoring {context : String} {work : Storing α} {done : α → FileSystem → Prop}
    {failed : StoreError → FileSystem → Prop} (h : Ends work w.files done failed) :
    Ends (ofStoring context work) w (fun a after => done a after.files)
      (fun f after => ∃ e, f.cause = .store e ∧ failed e after.files) := by
  cases hwork : work w.files with
  | ok a files =>
    have hrun : ofStoring context work w = .ok a { w with files } := by rw [ofStoring, hwork]
    exact ends_of_ok hrun (h.of_ok hwork)
  | error e files =>
    have hrun : ofStoring context work w = .error ⟨some context, .store e⟩ { w with files } := by rw [ofStoring, hwork]
    exact ends_of_error hrun ⟨e, rfl, h.of_error hwork⟩

theorem ends_ofExcept {ε : Type} {context : Option String} {cause : ε → Cause} {x : Except ε α}
    {done : α → World σ → Prop} {failed : Failure → World σ → Prop} (hdone : ∀ a, x = .ok a → done a w)
    (hfailed : ∀ e, x = .error e → failed ⟨context, cause e⟩ w) : Ends (ofExcept context cause x) w done failed := by
  cases x with
  | ok a => exact hdone a rfl
  | error e => exact hfailed e rfl

theorem ends_files {done : FileSystem → World σ → Prop} {failed : Failure → World σ → Prop} :
    Ends files w done failed ↔ done w.files w := Iff.rfl

theorem ends_now {done : String → World σ → Prop} {failed : Failure → World σ → Prop} :
    Ends (now around) w done failed ↔ done (around.clock w.ticks) { w with ticks := w.ticks + 1 } := Iff.rfl

/-! ## Slicing -/

def sliced (around : Surroundings σ) (p : Plan) (files : FileSystem) (engine : σ) : Except SliceError BatchOutput :=
  ((slicerOf around files p).run files p.input).gives (Session.start engine)

theorem sliceInput_ends (around : Surroundings σ) (p : Plan) (w : World σ) :
    Ends (sliceInput around p) w
      (fun output after => p.input.Readable w.files ∧ sliced around p w.files w.engine = .ok output ∧
        output.labelsConsistent ∧ after.files = w.files)
      (fun f after => ∃ e, f.cause = .slicing e ∧ sliced around p w.files w.engine = .error e ∧ after.files = w.files ∧
        if e.isOfInput then ¬ p.input.Readable w.files ∧ w.Alike after else p.input.Readable w.files) := by
  have hengine : (slicerOf around w.files p).engine.NotOfInput := Engine.notOfInput_spawned _ _ _ _
  have hrun := Slicer.run_ends hengine w.files p.input (Session.start w.engine)
  unfold Ends sliceInput
  dsimp only
  cases hwork : (slicerOf around w.files p).run w.files p.input (Session.start w.engine) with
  | ok output s =>
    obtain ⟨hread, hlabels⟩ := hrun.of_ok hwork
    exact ⟨hread, Slicing.gives_of_ok hwork, hlabels, rfl⟩
  | error e s =>
    refine ⟨e, rfl, Slicing.gives_of_error hwork, rfl, ?_⟩
    have hfailed := hrun.of_error hwork
    split_ifs at hfailed ⊢
    · obtain ⟨hread, rfl⟩ := hfailed
      exact ⟨hread, rfl, rfl, List.append_nil _⟩
    · exact hfailed

/-! ## Delivering -/

/-- **What delivering an output does to the files**: it writes the output file, unless the slice is printed. -/
def Delivers (p : Plan) (before : FileSystem) (output : BatchOutput) (after : FileSystem) : Prop :=
  if p.print then after = before else before.write p.output output.fileBytes = .ok after

theorem deliver_ends (p : Plan) (output : BatchOutput) (w : World σ) :
    Ends (deliver p output) w (fun _ after => Delivers p w.files output after.files)
      (fun f after => f.cause.stage = .writing ∧ after = w ∧ p.print = false ∧
        ∃ fault, w.files.write p.output output.fileBytes = .error fault) := by
  unfold deliver Delivers
  split_ifs with hprint
  · exact rfl
  · refine .bind (ends_files.2 (.bind (ends_ofExcept (fun written hwritten => ?_) fun e he => ?_)))
    · exact BatchOutput.write_of_ok hwritten
    · obtain ⟨fault, hfault, rfl⟩ := BatchOutput.write_error he
      exact ⟨rfl, rfl, Bool.eq_false_iff.2 hprint, fault, hfault⟩

/-- **Slicing failed**: for the engine, its report, a source, or the labels. -/
structure NotSliced (around : Surroundings σ) (p : Plan) (before after : World σ) : Prop where
  ready : p.Ready before.files
  fails : ∃ e, sliced around p before.files before.engine = .error e
  files : after.files = before.files

structure NotWritten (around : Surroundings σ) (p : Plan) (before after : World σ) : Prop where
  ready : p.Ready before.files
  fails : p.print = false ∧ ∃ output fault, sliced around p before.files before.engine = .ok output ∧
    before.files.write p.output output.fileBytes = .error fault
  files : after.files = before.files

/-- **Up to the output file**: a result is there before the file is written, and a failure leaves all files. -/
theorem produce_ends (around : Surroundings σ) (p : Plan) (w : World σ) :
    Ends (produce around p) w
      (fun r after => p.Ready w.files ∧ sliced around p w.files w.engine = .ok r.output ∧ r.output.labelsConsistent ∧
        Delivers p w.files r.output after.files)
      (fun f after => match f.cause.stage with
        | .preparing => ¬ p.Ready w.files ∧ w.Alike after
        | .slicing => NotSliced around p w after
        | .writing => NotWritten around p w after
        | .recording => False) := by
  unfold produce
  refine .bind (ends_files.2 ?_)
  dsimp only
  split_ifs with hartifact
  · refine .bind ⟨fun hready => ?_, rfl, rfl, rfl⟩
    rw [hready.artifact] at hartifact
    cases hartifact
  rw [Bool.not_eq_true', Bool.not_eq_false] at hartifact
  refine .bind (ends_now.2 (.bind ((sliceInput_ends around p _).imp ?_ ?_)))
  · rintro output middle ⟨hread, hsliced, hlabels, hfiles⟩
    refine .bind (ends_now.2 (.bind ((deliver_ends p output _).imp (fun _ after hdelivers => ?_) ?_)))
    · exact ⟨⟨hartifact, hread⟩, hsliced, hlabels, by rw [← hfiles]; exact hdelivers⟩
    · rintro f after ⟨hstage, rfl, hprint, fault, hfault⟩
      rw [hstage]
      exact ⟨⟨hartifact, hread⟩, ⟨hprint, output, fault, hsliced, by rw [← hfiles]; exact hfault⟩, hfiles⟩
  · rintro f after ⟨e, he, hsliced, hfiles, hfailed⟩
    rw [he, Cause.stage]
    split_ifs at hfailed ⊢
    · obtain ⟨hread, halike⟩ := hfailed
      exact ⟨fun hready => hread hready.input, hfiles, halike.engine, halike.calls⟩
    · exact ⟨⟨hartifact, hfailed⟩, ⟨e, hsliced⟩, hfiles⟩

/-! ## Recording -/

theorem cause_of_sha256File {files : FileSystem} {p : Path} {f : Failure} (h : sha256File files p = .error f) :
    f.cause.stage = .recording := by
  unfold sha256File at h
  split at h
  next => cases h; rfl
  next => cases h; rfl
  next => cases h

theorem stage_of_isOfDatabase {f : Failure} {e : StoreError} (hf : f.cause = .store e) (he : e.isOfDatabase = true) :
    f.cause.stage = .recording := by
  rw [hf, Cause.stage, if_pos he]

/-- **Recording adds one run to the database**, or leaves its runs as they were. -/
theorem recordRun_ends {db : Path} {l : Location} (hl : w.files.homeOf? db = some l) (p : Plan) (r : Produced) :
    Ends (recordRun db p r) w
      (fun id after => FileSystem.Around l w.files after.files ∧
        ∃ hash d, (w.files.databaseAt l).migrate = .ok d ∧
          d.insertRun ⟨p.artifact.text, some hash, p.mode, r.startedAt, r.finishedAt⟩ r.output
            = .ok (id, after.files.databaseAt l))
      (fun f after => f.cause.stage = .recording ∧ FileSystem.Around l w.files after.files ∧
        (after.files.databaseAt l = w.files.databaseAt l ∨
          (w.files.databaseAt l).migrate = .ok (after.files.databaseAt l))) := by
  refine .bind ((ends_ofStoring (Handle.openAt_ends hl)).imp ?_ ?_)
  · rintro handle opened ⟨⟨path, o, -, rfl⟩, haround, hmigrate⟩
    refine .bind (ends_files.2 ?_)
    cases hhash : sha256File opened.files p.artifact with
    | error f => exact .bind ⟨cause_of_sha256File hhash, haround, .inr hmigrate⟩
    | ok hash =>
      refine .bind (ends_pure.2 (.bind ((ends_ofStoring (Handle.insertRun_ends_found o _ _ _)).imp ?_ ?_)))
      · rintro ⟨id, handle⟩ after ⟨-, haround', hinsert⟩
        exact ⟨haround.trans haround', hash, _, hmigrate, hinsert⟩
      · rintro f after ⟨e, hf, he, hfiles⟩
        exact ⟨stage_of_isOfDatabase hf he, by rw [hfiles]; exact haround, .inr (by rw [hfiles]; exact hmigrate)⟩
  · rintro f after ⟨e, hf, he, haround, hat⟩
    exact ⟨stage_of_isOfDatabase hf he, haround, .inl hat⟩

theorem recordRun_ends_of_none {db : Path} (hl : w.files.homeOf? db = none) (p : Plan) (r : Produced) :
    Ends (recordRun db p r) w (fun _ after => after.files = w.files)
      (fun f after => f.cause.stage = .recording ∧ after.files = w.files) := by
  refine .bind ((ends_ofStoring (Handle.openAt_ends_of_none hl)).imp ?_ ?_)
  · rintro handle opened ⟨⟨d, rfl⟩, -, hfiles⟩
    refine .bind (ends_files.2 ?_)
    cases hhash : sha256File opened.files p.artifact with
    | error f => exact .bind ⟨cause_of_sha256File hhash, hfiles⟩
    | ok hash =>
      refine .bind (ends_pure.2 (.bind ((ends_ofStoring (Handle.insertRun_ends_memory d _ _)).imp ?_ ?_)))
      · rintro ⟨id, handle⟩ after ⟨-, hafter⟩
        exact hafter.trans hfiles
      · rintro f after ⟨e, hf, he, hafter⟩
        exact ⟨stage_of_isOfDatabase hf he, hafter.trans hfiles⟩
  · rintro f after ⟨e, hf, he, hfiles⟩
    exact ⟨stage_of_isOfDatabase hf he, hfiles⟩

end Command
end SourceSlice
