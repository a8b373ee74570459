import SourceSlice.Proofs.Command.Stages
/-!
# What a run persists

A run leaves nothing in the files before slicing is done, and then the output file comes before the results database
(`slice_persists`).  `Plan.Apart` asks that the two be different files; no other file is changed by either.

The output file is read back at the end although the database was written after it: a walk to a place that the
database does not use leads there in both trees (`Delivers.leaves_around`).  The database in turn does not see the
output file (`Delivers.databaseAt_eq`), so recording starts from what was there before the run.
-/
namespace SourceSlice

open Work FileSystem

variable {σ : Type} {files before middle after : FileSystem} {l : Location} {output : BatchOutput}

namespace Plan

variable {p : Plan}

/-- The place of the results database.  There is none where no database is named, or one that is kept in no file. -/
def home? (p : Plan) (files : FileSystem) : Option Location := p.db.bind files.homeOf?

/-- **The output file is none of the database's files.** -/
def Apart (p : Plan) (files : FileSystem) : Prop :=
  ∀ k l, files.locateForWriting p.output = .ok k → p.home? files = some l → k ∉ databasePlaces l

instance (p : Plan) (files : FileSystem) : Decidable (p.Apart files) :=
  match hk : files.locateForWriting p.output, hl : p.home? files with
  | .error _, _ => isTrue fun _ _ h => nomatch hk.symm.trans h
  | .ok _, none => isTrue fun _ _ _ h => nomatch hl.symm.trans h
  | .ok k, some l => decidable_of_iff (k ∉ databasePlaces l)
    ⟨fun h _ _ hk' hl' => Except.ok.inj (hk.symm.trans hk') ▸ Option.some.inj (hl.symm.trans hl') ▸ h,
      fun h => h k l hk hl⟩

def places (p : Plan) (files : FileSystem) : Set Location :=
  {k | p.print = false ∧ files.locateForWriting p.output = .ok k} ∪
    {k | ∃ l, p.home? files = some l ∧ k ∈ databasePlaces l}

/-- **The files that a plan leaves**: the output file holds the output, unless that was printed, and of the other files
only those of the database may differ. -/
structure Leaves (p : Plan) (before : FileSystem) (output : BatchOutput) (after : FileSystem) : Prop where
  written : p.print = false → BatchOutput.read after p.output = .ok output
  others : Alike (p.places before) before after

end Plan

def RunsKept (l : Location) (before after : FileSystem) : Prop :=
  (after.databaseAt l).runRows = (before.databaseAt l).runRows ∧
    (after.databaseAt l).entryRows = (before.databaseAt l).entryRows

def RunAdded (l : Location) (output : BatchOutput) (before after : FileSystem) : Prop :=
  ∃ id run, (after.databaseAt l).runRows = (before.databaseAt l).runRows ++ [Database.newRow id run output] ∧
    (after.databaseAt l).entryRows = (before.databaseAt l).entryRows ++ Database.newEntries id output

namespace Command

variable {around : Surroundings σ} {p : Plan} {w : World σ}

/-! ## The output file and the database -/

theorem Delivers.spec (h : Delivers p before output middle) (hrooted : before.Rooted) :
    middle.Rooted ∧ Alike {k | p.print = false ∧ before.locateForWriting p.output = .ok k} before middle ∧
      (p.print = false → ∃ k, before.locateForWriting p.output = .ok k ∧ middle.locate p.output = .ok k ∧
        middle.read p.output = .ok output.fileBytes) := by
  unfold Delivers at h
  split_ifs at h with hprint
  · subst h
    exact ⟨hrooted, .refl _, fun hno => absurd hprint (by rw [hno]; exact Bool.false_ne_true)⟩
  · obtain ⟨k, hk, halike, hroot, hlocate, hread⟩ := FileSystem.write_ok h
    refine ⟨hroot hrooted, halike.mono ?_, fun _ => ⟨k, hk, hlocate, hread⟩⟩
    rintro _ rfl
    exact ⟨Bool.eq_false_iff.2 hprint, hk⟩

theorem Delivers.current (h : Delivers p before output middle) : middle.current = before.current := by
  unfold Delivers at h
  split_ifs at h
  · rw [h]
  · obtain ⟨l, -, halike, -⟩ := FileSystem.write_ok h
    exact halike.current

theorem Delivers.home?_eq {db : Path} (h : Delivers p before output middle) (hdb : p.db = some db) :
    p.home? before = middle.homeOf? db := by
  rw [Plan.home?, hdb]
  exact (Handle.homeOf?_eq h.current db).symm

theorem Delivers.databaseAt_eq (h : Delivers p before output middle) (hrooted : before.Rooted)
    (hapart : p.Apart before) (hl : p.home? before = some l) : middle.databaseAt l = before.databaseAt l := by
  refine FileSystem.databaseAt_eq ((h.spec hrooted).2.1.node l ?_)
  rintro ⟨-, hk⟩
  exact hapart l l hk hl (Set.mem_insert _ _)

theorem Delivers.leaves (h : Delivers p before output middle) (hrooted : before.Rooted) :
    p.Leaves before output middle where
  written hprint := by
    obtain ⟨k, -, -, hread⟩ := (h.spec hrooted).2.2 hprint
    exact BatchOutput.read_of_bytes hread
  others := (h.spec hrooted).2.1.mono Set.subset_union_left

theorem Delivers.leaves_around (h : Delivers p before output middle) (hrooted : before.Rooted) (hapart : p.Apart before)
    (hl : p.home? before = some l) (haround : Around l middle after) : p.Leaves before output after where
  written hprint := by
    obtain ⟨k, hk, hlocate, hread⟩ := (h.spec hrooted).2.2 hprint
    -- `hlocate` is about the tree with the output file in it: before, the path may have led nowhere.
    have hsame : after.read p.output = middle.read p.output :=
      (haround.alike (h.spec hrooted).1).read hlocate (hapart k l hk hl)
    exact BatchOutput.read_of_bytes (hsame.trans hread)
  others := ((h.spec hrooted).2.1.mono Set.subset_union_left).trans <|
    (haround.alike (h.spec hrooted).1).mono fun _ hk => .inr ⟨l, hl, hk⟩

/-! ## Carrying out a plan -/

/-- **A run of a plan was recorded in a database**, which was brought to the current version before. -/
def Records (p : Plan) (l : Location) (output : BatchOutput) (before after : FileSystem) : Prop :=
  ∃ d id run, (before.databaseAt l).migrate = .ok d ∧ d.insertRun run output = .ok (id, after.databaseAt l) ∧
    run.artifact = p.artifact.text ∧ run.mode = p.mode

theorem Records.runAdded (h : Records p l output before after) : RunAdded l output before after := by
  obtain ⟨d, id, run, hmigrate, hinsert, -⟩ := h
  obtain ⟨hruns, hentries⟩ := Database.rows_of_migrate hmigrate
  obtain ⟨hruns', hentries'⟩ := Database.rows_of_insertRun hinsert
  exact ⟨id, run, by rw [hruns', hruns], by rw [hentries', hentries]⟩

theorem runsKept_of_migrate (h : after.databaseAt l = before.databaseAt l ∨
    (before.databaseAt l).migrate = .ok (after.databaseAt l)) : RunsKept l before after := by
  rcases h with h | h
  · exact ⟨by rw [h], by rw [h]⟩
  · exact Database.rows_of_migrate h

structure CarriedOut (around : Surroundings σ) (p : Plan) (before : World σ) (output : BatchOutput) (after : World σ) :
    Prop where
  ready : p.Ready before.files
  sliced : sliced around p before.files before.engine = .ok output
  labels : output.labelsConsistent
  leaves : p.Leaves before.files output after.files
  records : ∀ l, p.home? before.files = some l → Records p l output before.files after.files

/-- **The run could not be recorded**: the output was delivered in full and no run was added to what is known of the
database. -/
structure NotRecorded (around : Surroundings σ) (p : Plan) (before after : World σ) : Prop where
  ready : p.Ready before.files
  named : p.db.isSome
  leaves : ∃ output, Command.sliced around p before.files before.engine = .ok output ∧
    p.Leaves before.files output after.files
  runs : ∀ l, p.home? before.files = some l → before.files.Known l → RunsKept l before.files after.files

theorem produce_db (around : Surroundings σ) (p : Plan) (db : Option Path) :
    produce around { p with db } = produce around p := rfl

theorem record_ends {db : Path} {r : Produced} (hdb : p.db = some db) (hrooted : before.Rooted)
    (hapart : p.Apart before) (hdelivers : Delivers p before r.output w.files) :
    Ends (recordRun db p r) w
      (fun _ after => p.Leaves before r.output after.files ∧
        ∀ l, p.home? before = some l → Records p l r.output before after.files)
      (fun f after => f.cause.stage = .recording ∧ p.Leaves before r.output after.files ∧
        ∀ l, p.home? before = some l → RunsKept l before after.files) := by
  have hhome := hdelivers.home?_eq hdb
  cases hl : w.files.homeOf? db with
  | none =>
    refine (recordRun_ends_of_none hl p r).imp ?_ ?_
    · rintro id after hfiles
      refine ⟨by rw [hfiles]; exact hdelivers.leaves hrooted, fun l hl' => ?_⟩
      rw [hhome, hl] at hl'
      cases hl'
    · rintro f after ⟨hstage, hfiles⟩
      refine ⟨hstage, by rw [hfiles]; exact hdelivers.leaves hrooted, fun l hl' => ?_⟩
      rw [hhome, hl] at hl'
      cases hl'
  | some l =>
    have hsame := hdelivers.databaseAt_eq hrooted hapart (hhome.trans hl)
    refine (recordRun_ends hl p r).imp ?_ ?_
    · rintro id after ⟨haround, hash, d, hmigrate, hinsert⟩
      refine ⟨hdelivers.leaves_around hrooted hapart (hhome.trans hl) haround, fun l' hl' => ?_⟩
      obtain rfl : l = l' := Option.some.inj ((hhome.trans hl).symm.trans hl')
      exact ⟨d, id, _, by rw [← hsame]; exact hmigrate, hinsert, rfl, rfl⟩
    · rintro f after ⟨hstage, haround, hruns⟩
      refine ⟨hstage, hdelivers.leaves_around hrooted hapart (hhome.trans hl) haround, fun l' hl' => ?_⟩
      obtain rfl : l = l' := Option.some.inj ((hhome.trans hl).symm.trans hl')
      rw [hsame] at hruns
      exact runsKept_of_migrate hruns

/-- **How carrying out a plan ends**, by the stage in which it fails. -/
theorem execute_ends (hrooted : w.files.Rooted) (hapart : p.Apart w.files) :
    Ends (execute around p) w (CarriedOut around p w)
      (fun f after => match f.cause.stage with
        | .preparing => ¬ p.Ready w.files ∧ w.Alike after
        | .slicing => NotSliced around p w after
        | .writing => NotWritten around p w after ∧ ∀ db, execute around { p with db } w = .error f after
        | .recording => NotRecorded around p w after) := by
  cases hrun : produce around p w with
  | error f after =>
    have hfailed := (produce_ends around p w).of_error hrun
    -- Up to the output file nothing depends on the database, so any other one gives the same failure.
    have hfail (db : Option Path) : execute around { p with db } w = .error f after := by
      unfold execute
      rw [produce_db]
      exact bind_of_error hrun
    refine ends_of_error (hfail p.db) ?_
    cases hstage : f.cause.stage with
    | preparing => rwa [hstage] at hfailed
    | slicing => rwa [hstage] at hfailed
    | writing =>
      rw [hstage] at hfailed
      exact ⟨hfailed, hfail⟩
    | recording =>
      rw [hstage] at hfailed
      exact hfailed.elim
  | ok r middle =>
    obtain ⟨hready, hsliced, hlabels, hdelivers⟩ := (produce_ends around p w).of_ok hrun
    unfold execute
    refine .bind (ends_of_ok hrun ?_)
    cases hdb : p.db with
    | none =>
      refine ⟨hready, hsliced, hlabels, hdelivers.leaves hrooted, fun l hl => ?_⟩
      rw [Plan.home?, hdb] at hl
      cases hl
    | some db =>
      refine .bind ((record_ends hdb hrooted hapart hdelivers).imp ?_ ?_)
      · rintro id after ⟨hleaves, hrecords⟩
        -- The line with the id is printed or not; the files are the same.
        dsimp only
        split_ifs
        · exact .bind ⟨hready, hsliced, hlabels, hleaves, hrecords⟩
        · exact ⟨hready, hsliced, hlabels, hleaves, hrecords⟩
      · rintro f after ⟨hstage, hleaves, hruns⟩
        rw [hstage]
        exact ⟨hready, by rw [hdb]; rfl, ⟨r.output, hsliced, hleaves⟩, fun l hl _ => hruns l hl⟩

theorem files_of_produce_error {f : Failure} {after : World σ} (h : produce around p w = .error f after) :
    after.files = w.files := by
  have hfailed := (produce_ends around p w).of_error h
  cases hstage : f.cause.stage <;> rw [hstage] at hfailed
  · exact hfailed.2.files
  · exact hfailed.files
  · exact hfailed.files
  · exact hfailed.elim

theorem execute_alike (hrooted : w.files.Rooted) :
    EndsIn (execute around p) w fun after => FileSystem.Alike (p.places w.files) w.files after.files := by
  unfold execute
  cases hrun : produce around p w with
  | error f after =>
    refine ends_of_error (bind_of_error hrun) ?_
    rw [files_of_produce_error hrun]
    exact .refl _
  | ok r middle =>
    obtain ⟨-, -, -, hdelivers⟩ := (produce_ends around p w).of_ok hrun
    obtain ⟨hmiddle, halike, -⟩ := hdelivers.spec hrooted
    have hdelivered : FileSystem.Alike (p.places w.files) w.files middle.files := halike.mono Set.subset_union_left
    refine .bind (ends_of_ok hrun ?_)
    cases hdb : p.db with
    | none => exact hdelivered
    | some db =>
      have hrecorded : EndsIn (recordRun db p r) middle fun after =>
          FileSystem.Alike (p.places w.files) w.files after.files := by
        cases hl : middle.files.homeOf? db with
        | none =>
          refine (recordRun_ends_of_none hl p r).imp (fun _ _ hfiles => ?_) fun _ _ h => ?_
          · rw [hfiles]; exact hdelivered
          · rw [h.2]; exact hdelivered
        | some l =>
          have hother {after : FileSystem} (haround : Around l middle.files after) :
              FileSystem.Alike (p.places w.files) w.files after :=
            hdelivered.trans ((haround.alike hmiddle).mono fun _ hk =>
              .inr ⟨l, (hdelivers.home?_eq hdb).trans hl, hk⟩)
          exact (recordRun_ends hl p r).imp (fun _ _ h => hother h.1) fun _ _ h => hother h.2.1
      refine .bind (hrecorded.imp (fun id after h => ?_) fun _ _ h => h)
      dsimp only
      split_ifs
      · exact h
      · exact h

end Command

/-! ## The command -/

/-- **The plan of a run among these files**, where its settings load and its options go together. -/
def SliceOptions.planned? (o : SliceOptions) (files : FileSystem) (engineVariable : Option String) : Option Plan :=
  match Settings.loadOrStandard files o.config with
  | .ok settings => (o.plan settings engineVariable).toOption
  | .error _ => none

theorem SliceOptions.planned?_db {o : SliceOptions} {files : FileSystem} {engineVariable : Option String} {p : Plan}
    (hp : o.planned? files engineVariable = some p) (db : Path) :
    ({ o with db := some db } : SliceOptions).planned? files engineVariable = some { p with db := some db } := by
  unfold planned? at hp ⊢
  dsimp only
  cases hsettings : Settings.loadOrStandard files o.config with
  | error e => rw [hsettings] at hp; cases hp
  | ok settings =>
    rw [hsettings] at hp
    dsimp only [plan] at hp ⊢
    cases hinput : BatchInput.choose o.table o.criterion (some (o.entry.getD settings.defaultEntry)) with
    | error e => rw [hinput] at hp; cases hp
    | ok input => rw [hinput] at hp; cases hp; rfl

def World.warned (w : World σ) (warnings : List String) : World σ := { w with warnings := w.warnings ++ warnings }

namespace Command

variable {around : Surroundings σ} {o : SliceOptions} {p : Plan} {w : World σ}

theorem forM_warn : ∀ (warnings : List String) (w : World σ), warnings.forM warn w = .ok ⟨⟩ (w.warned warnings)
  | [], w => by rw [World.warned, List.append_nil]; rfl
  | first :: rest, w => by
    have hrest : (w.warned [first]).warned rest = w.warned (first :: rest) := by
      simp only [World.warned, List.append_assoc, List.singleton_append]
    exact (forM_warn rest (w.warned [first])).trans (by rw [hrest])

theorem ofExcept_ok {ε α : Type} (context : Option String) (cause : ε → Cause) (a : α) (w : World σ) :
    ofExcept context cause (.ok a) w = .ok a w := rfl

theorem slice_of_planned (hp : o.planned? w.files around.engineVariable = some p) :
    slice around o w = execute around p (w.warned o.warnings) := by
  have hfiles : (files : Command σ FileSystem) w = .ok w.files w := rfl
  unfold SliceOptions.planned? at hp
  unfold slice
  rw [bind_of_ok hfiles]
  cases hsettings : Settings.loadOrStandard w.files o.config with
  | error e => rw [hsettings] at hp; cases hp
  | ok settings =>
    rw [hsettings] at hp
    dsimp only at hp
    cases hplan : o.plan settings around.engineVariable with
    | error e => rw [hplan] at hp; cases hp
    | ok plan =>
      rw [hplan] at hp
      cases hp
      rw [bind_of_ok (ofExcept_ok _ _ settings w), bind_of_ok (forM_warn o.warnings w), hplan,
        bind_of_ok (ofExcept_ok _ _ p _)]

theorem isOfInput_of_plan {settings : Settings} {engineVariable : Option String} {e : SliceError}
    (h : o.plan settings engineVariable = .error e) : e.isOfInput := by
  unfold SliceOptions.plan BatchInput.choose at h
  split at h
  next => cases h
  next => cases h
  next => cases h; rfl
  next => cases h; rfl

theorem slice_of_planned?_none (hp : o.planned? w.files around.engineVariable = none) :
    Ends (slice around o) w (fun _ _ => False) (fun f after => f.cause.stage = .preparing ∧ w.Alike after) := by
  unfold SliceOptions.planned? at hp
  unfold slice
  refine .bind (ends_files.2 (.bind (ends_ofExcept (fun settings hsettings => ?_) fun e he => ⟨rfl, rfl, rfl, rfl⟩)))
  refine .bind (ends_of_ok (forM_warn o.warnings w) (.bind (ends_ofExcept (fun plan hplan => ?_) fun e he => ?_)))
  · rw [hsettings] at hp
    dsimp only at hp
    rw [hplan] at hp
    cases hp
  · refine ⟨?_, rfl, rfl, rfl⟩
    rw [Cause.stage, if_pos (isOfInput_of_plan he)]

/-- **A run persists nothing before slicing is done, and then the output file before the results database.**  How far it
came is told by the cause of its failure; a run that is not ready fails before the engine is asked.  The runs of a
database are spoken of where all is known of it. -/
theorem slice_persists (around : Surroundings σ) (o : SliceOptions) (w : World σ) (hrooted : w.files.Rooted)
    (hapart : ∀ p, o.planned? w.files around.engineVariable = some p → p.Apart w.files) :
    Ends (slice around o) w
      (fun output after => ∃ p, o.planned? w.files around.engineVariable = some p ∧ p.Ready w.files ∧
        sliced around p w.files w.engine = .ok output ∧ p.Leaves w.files output after.files ∧
        ∀ l, p.home? w.files = some l → w.files.Known l → RunAdded l output w.files after.files)
      (fun f after => match f.cause.stage with
        | .preparing => (∀ p, o.planned? w.files around.engineVariable = some p → ¬ p.Ready w.files) ∧ w.Alike after
        | .slicing => ∃ p, o.planned? w.files around.engineVariable = some p ∧ NotSliced around p w after
        | .writing => (∃ p, o.planned? w.files around.engineVariable = some p ∧ NotWritten around p w after) ∧
          ∀ db, slice around { o with db := some db } w = .error f after
        | .recording => ∃ p, o.planned? w.files around.engineVariable = some p ∧ NotRecorded around p w after) := by
  cases hp : o.planned? w.files around.engineVariable with
  | none =>
    refine (slice_of_planned?_none hp).imp (fun _ _ h => h.elim) ?_
    rintro f after ⟨hstage, halike⟩
    rw [hstage]
    exact ⟨nofun, halike⟩
  | some p =>
    -- The plan is carried out after the warnings, which change neither files nor engine nor calls.
    have hends := @execute_ends σ around p (w.warned o.warnings) hrooted (hapart p hp)
    unfold Ends
    rw [slice_of_planned hp]
    refine hends.imp ?_ ?_
    · rintro output after h
      exact ⟨p, rfl, h.ready, h.sliced, h.leaves, fun l hl _ => (h.records l hl).runAdded⟩
    · intro f after h
      cases hstage : f.cause.stage with
      | preparing =>
        rw [hstage] at h
        refine ⟨?_, h.2.files, h.2.engine, h.2.calls⟩
        rintro _ ⟨⟩
        exact h.1
      | slicing =>
        rw [hstage] at h
        exact ⟨p, rfl, h.ready, h.fails, h.files⟩
      | writing =>
        rw [hstage] at h
        refine ⟨⟨p, rfl, h.1.ready, h.1.fails, h.1.files⟩, fun db => ?_⟩
        rw [slice_of_planned (SliceOptions.planned?_db hp db)]
        exact h.2 (some db)
      | recording =>
        rw [hstage] at h
        exact ⟨p, rfl, h.ready, h.named, h.leaves, h.runs⟩

def oneSource (others : List (Location × Node)) : World Unit :=
  let nodes : List (Location × Node) := [(["prog.bc"], .file (.bytes ByteArray.empty) false), (["bin"], .directory),
    (["llvm-src-slicer", "bin"], .file (.program ByteArray.empty) true),
    (["a.c"], .file (.bytes "int v;\n".toUTF8) false)]
  ⟨⟨nodes ++ others, []⟩, (), [], 0, "", []⟩

def reportingLineOne : Surroundings Unit where
  engineVariable := none
  program _ _ := (⟨.exited 0, "a.c,1\n".toUTF8, ByteArray.empty⟩, ())
  clock _ := "0"

def recordedOptions : SliceOptions :=
  { artifact := ⟨"prog.bc"⟩, criterion := some "a.c##1#&v", output := some ⟨"out.json"⟩, db := some ⟨"runs.db"⟩ }

/-- A directory stands where the results database should be. -/
theorem slice_persists_blocked_database :
    let w := oneSource [(["runs.db"], .directory)]
    w.files.Rooted ∧ (∀ p, recordedOptions.planned? w.files none = some p → p.Apart w.files) ∧
      ∃ f after p, slice reportingLineOne recordedOptions w = .error f after ∧ f.cause.stage = .recording ∧
        recordedOptions.planned? w.files none = some p ∧ NotRecorded reportingLineOne p w after := by
  intro w
  have hrooted : w.files.Rooted := by decide
  have hapart : ∀ p ∈ recordedOptions.planned? w.files none, p.Apart w.files := by decide +kernel
  have hends := slice_persists reportingLineOne recordedOptions w hrooted hapart
  have hstage : (match slice reportingLineOne recordedOptions w with
    | .ok .. => none
    | .error f _ => some f.cause.stage) = some Stage.recording := by decide +kernel
  refine ⟨hrooted, hapart, ?_⟩
  cases hrun : slice reportingLineOne recordedOptions w with
  | ok output after => rw [hrun] at hstage; cases hstage
  | error f after =>
    rw [hrun] at hstage
    have hfailed := hends.of_error hrun
    rw [Option.some.inj hstage] at hfailed
    obtain ⟨p, hp, hnot⟩ := hfailed
    exact ⟨f, after, p, rfl, Option.some.inj hstage, hp, hnot⟩

end Command
end SourceSlice
