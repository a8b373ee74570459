import SourceSlice.Proofs.Command.Effective
import SourceSlice.Proofs.Command.Watched
/-!
# Runs after a look at a database

A run does the same whether or not databases were looked at before it (`slice_observed`): it is followed in two worlds
that differ in their files alone, as `FileSystem.Observed` says (`World.Observed`).  The clock is looked at equally
often in both (`produce_clock`), so that even the times that are recorded are the same.
-/
namespace SourceSlice

open Work FileSystem

variable {σ : Type} {start : FileSystem} {names : List Path}

/-- **Two worlds that differ in their files alone**, where databases were looked at in the second. -/
structure World.Observed (start : FileSystem) (names : List Path) (w w' : World σ) : Prop where
  files : FileSystem.Observed start names w.files w'.files
  others : w' = { w with files := w'.files }

namespace World.Observed

variable {w w' : World σ}

theorem withFiles (h : World.Observed start names w w') {files files' : FileSystem}
    (hfiles : FileSystem.Observed start names files files') :
    World.Observed start names { w with files } { w' with files := files' } :=
  ⟨hfiles, by rw [h.others]⟩

theorem printed (h : World.Observed start names w w') (text : String) :
    World.Observed start names { w with stdout := w.stdout ++ text } { w' with stdout := w'.stdout ++ text } :=
  ⟨h.files, by rw [h.others]⟩

theorem warned (h : World.Observed start names w w') (warnings : List String) :
    World.Observed start names (w.warned warnings) (w'.warned warnings) :=
  ⟨h.files, by rw [h.others]; rfl⟩

theorem of_alongside {sameFiles : FileSystem → FileSystem → Prop} {t t' : World σ}
    (h : World.Observed start names w w') (halong : World.Alongside sameFiles w w' t t') (hticks : t'.ticks = t.ticks)
    (hwarnings : t'.warnings = t.warnings) (hfiles : FileSystem.Observed start names t.files t'.files) :
    World.Observed start names t t' := by
  have hbefore : w'.calls = w.calls ∧ w'.stdout = w.stdout := by rw [h.others]; exact ⟨rfl, rfl⟩
  obtain ⟨made, hmade, hmade'⟩ := halong.calls
  obtain ⟨printed, hprinted, hprinted'⟩ := halong.stdout
  have hcalls : t'.calls = t.calls := by rw [hmade', hmade, hbefore.1]
  have hstdout : t'.stdout = t.stdout := by rw [hprinted', hprinted, hbefore.2]
  have hengine := halong.engine
  refine ⟨hfiles, ?_⟩
  cases t
  cases t'
  simp_all

end World.Observed

def Cause.looks : Cause → Nat
  | slicing _ => 1
  | store _ => 2
  | _ => 0

namespace Command

variable {around : Surroundings σ} {p : Plan} {w w' : World σ}

/-! ## Carrying out a plan -/

/-- **The clock is looked at when slicing begins and when it ends.**  Nothing is warned of. -/
theorem produce_clock (around : Surroundings σ) (p : Plan) (w : World σ) : Ends (produce around p) w
    (fun r after => r.startedAt = around.clock w.ticks ∧ r.finishedAt = around.clock (w.ticks + 1) ∧
      after.ticks = w.ticks + 2 ∧ after.warnings = w.warnings)
    (fun f after => after.ticks = w.ticks + f.cause.looks ∧ after.warnings = w.warnings) := by
  have hslice (v : World σ) : Ends (sliceInput around p) v (fun _ t => t.ticks = v.ticks ∧ t.warnings = v.warnings)
      (fun f t => f.cause.looks = 1 ∧ t.ticks = v.ticks ∧ t.warnings = v.warnings) := by
    unfold Ends sliceInput
    dsimp only
    cases (slicerOf around v.files p).run v.files p.input (Session.start v.engine) with
    | ok output s => exact ⟨rfl, rfl⟩
    | error e s => exact ⟨rfl, rfl, rfl⟩
  have hdeliver (output : BatchOutput) (v : World σ) : Ends (deliver p output) v
      (fun _ t => t.ticks = v.ticks ∧ t.warnings = v.warnings)
      (fun f t => f.cause.looks = 2 ∧ t.ticks = v.ticks ∧ t.warnings = v.warnings) := by
    unfold deliver
    split_ifs
    · exact ⟨rfl, rfl⟩
    · exact .bind (ends_files.2 (.bind (ends_ofExcept (fun _ _ => ⟨rfl, rfl⟩) fun _ _ => ⟨rfl, rfl, rfl⟩)))
  unfold produce
  refine .bind (ends_files.2 ?_)
  dsimp only
  split_ifs
  · exact .bind ⟨rfl, rfl⟩
  refine .bind (ends_now.2 (.bind ((hslice _).imp ?_ ?_)))
  · rintro output sliced ⟨hticks, hwarnings⟩
    refine .bind (ends_now.2 (.bind ((hdeliver output _).imp ?_ ?_)))
    · rintro _ after ⟨hticks', hwarnings'⟩
      exact ⟨rfl, by rw [hticks], by rw [hticks', hticks], hwarnings'.trans hwarnings⟩
    · rintro f after ⟨hlooks, hticks', hwarnings'⟩
      exact ⟨by rw [hticks', hticks, hlooks], hwarnings'.trans hwarnings⟩
  · rintro f after ⟨hlooks, hticks, hwarnings⟩
    exact ⟨by rw [hticks, hlooks], hwarnings⟩

theorem produce_kept {places : Set Location} (hrooted : w.files.Rooted)
    (hoff : p.print = false → ∀ k, w.files.locateForWriting p.output = .ok k → k ∉ places) :
    EndsIn (produce around p) w fun after => after.files.current = w.files.current ∧ after.files.Rooted ∧
      ∀ k ∈ places, after.files.node? k = w.files.node? k := by
  cases hrun : produce around p w with
  | error f after =>
    refine ends_of_error hrun ?_
    rw [files_of_produce_error hrun]
    exact ⟨rfl, hrooted, fun _ _ => rfl⟩
  | ok r after =>
    obtain ⟨-, -, -, hdelivers⟩ := (produce_ends around p w).of_ok hrun
    obtain ⟨hrooted', halike, -⟩ := hdelivers.spec hrooted
    refine ends_of_ok hrun ⟨halike.current, hrooted', fun k hk => halike.node k ?_⟩
    rintro ⟨hprint, hlocate⟩
    exact hoff hprint k hlocate hk

theorem produce_observed (h : World.Observed start names w w')
    (havoids : ({ p with db := none } : Plan).Avoids (watched start names) around w.files w.engine) :
    Both (produce around p) (produce around p) w w'
      (fun r t r' t' => r' = r ∧ World.Observed start names t t' ∧
        FileSystem.InStep (watched start names) w.files t.files t'.files)
      (World.Observed start names) := by
  have hengine : w'.engine = w.engine := by rw [h.others]
  have hticks : w'.ticks = w.ticks := by rw [h.others]
  have hwarnings : w'.warnings = w.warnings := by rw [h.others]
  have hclock := produce_clock around p w
  have hclock' := produce_clock around p w'
  rw [hticks, hwarnings] at hclock'
  have hkept := @produce_kept σ around p w (watched start names) h.files.rooted fun hprint =>
    (h.files.agreeOff.locateForWriting (havoids.output hprint)).2
  have hkept' := @produce_kept σ around p w' (watched start names) h.files.rooted' fun hprint => by
    rw [(h.files.agreeOff.locateForWriting (havoids.output hprint)).1]
    exact (h.files.agreeOff.locateForWriting (havoids.output hprint)).2
  have hfiles {t t' : World σ} (hstep : World.InStep (watched start names) w w' t t')
      (ht : t.files.current = w.files.current ∧ t.files.Rooted ∧
        ∀ k ∈ watched start names, t.files.node? k = w.files.node? k)
      (ht' : t'.files.current = w'.files.current ∧ t'.files.Rooted ∧
        ∀ k ∈ watched start names, t'.files.node? k = w'.files.node? k) :
      FileSystem.Observed start names t.files t'.files :=
    h.files.of_kept ht.1 ht.2.1 ht'.2.1 hstep.files.agreeOff ht.2.2 ht'.2.2
  have hboth : Both (produce around p) (produce around p) w w' _ _ :=
    produce_both (p := { p with db := none }) ⟨rfl, rfl⟩ h.files.agreeOff havoids hengine
  rcases hboth.cases with ⟨r, t, r', t', hw, hw', houtput, hstep⟩ | ⟨f, t, t', hw, hw', hstep⟩
  · obtain ⟨hstarted, hfinished, hlooks, hwarned⟩ := hclock.of_ok hw
    obtain ⟨hstarted', hfinished', hlooks', hwarned'⟩ := hclock'.of_ok hw'
    refine both_of_ok hw hw' ⟨?_, ?_, hstep.files⟩
    · cases r
      cases r'
      simp_all
    · exact h.of_alongside hstep (hlooks'.trans hlooks.symm) (hwarned'.trans hwarned.symm)
        (hfiles hstep (hkept.of_ok hw) (hkept'.of_ok hw'))
  · obtain ⟨hlooks, hwarned⟩ := hclock.of_error hw
    obtain ⟨hlooks', hwarned'⟩ := hclock'.of_error hw'
    exact both_of_error hw hw' (h.of_alongside hstep (hlooks'.trans hlooks.symm) (hwarned'.trans hwarned.symm)
      (hfiles hstep (hkept.of_error hw) (hkept'.of_error hw')))

/-! ## Recording -/

theorem recordRun_same {spared : Set Location} {failed : FileSystem → FileSystem → Prop} {db : Path} (r : Produced)
    (hopen : Both (Handle.openAt db) (Handle.openAt db) w.files w'.files
      (fun handle t handle' t' => handle' = handle ∧ handle.Aside spared ∧ AgreeOff spared t t' ∧
        sha256File t' p.artifact = sha256File t p.artifact ∧ failed t t') failed) :
    Both (recordRun db p r) (recordRun db p r) w w'
      (fun id t id' t' => id' = id ∧ ∃ files files', t = { w with files } ∧ t' = { w' with files := files' } ∧
        AgreeOff spared files files')
      (fun t t' => ∃ files files', t = { w with files } ∧ t' = { w' with files := files' } ∧ failed files files') := by
  unfold recordRun
  refine .bind ((both_ofStoring hopen).imp ?_ fun _ _ h => h)
  rintro _ _ handle _ ⟨opened, opened', rfl, rfl, rfl, hhandle, hagree, hhash, hfailed⟩
  refine .bind (both_of_ok rfl rfl ?_)
  dsimp only
  rw [hhash]
  cases sha256File opened p.artifact with
  | error f => exact .bind ⟨rfl, opened, opened', rfl, rfl, hfailed⟩
  | ok hash =>
    let run : NewRun := ⟨p.artifact.text, some hash, p.mode, r.startedAt, r.finishedAt⟩
    refine .bind (both_of_ok rfl rfl (.bind ?_))
    have hinsert : Both (handle.insertRun run r.output) (handle.insertRun run r.output) opened opened'
        (fun x t x' t' => x' = x ∧ AgreeOff spared t t') (fun t t' => t = opened ∧ t' = opened') := by
      rcases (Handle.keepsStep_insertRun hhandle run r.output _ _ hagree.inStep).cases with
        ⟨x, t, x', t', hw, hw', rfl, ht⟩ | ⟨e, t, t', hw, hw', -⟩
      · exact both_of_ok hw hw' ⟨rfl, ht.agreeOff⟩
      · exact both_of_error hw hw' ⟨Handle.eq_of_insertRun_error hw, Handle.eq_of_insertRun_error hw'⟩
    refine (both_ofStoring hinsert).imp ?_ ?_
    · rintro x _ _ _ ⟨t, t', rfl, rfl, rfl, ht⟩
      exact ⟨rfl, t, t', rfl, rfl, ht⟩
    · rintro _ _ ⟨_, _, rfl, rfl, rfl, rfl⟩
      exact ⟨_, _, rfl, rfl, hfailed⟩

theorem recordRun_kept {places : Set Location} {db : Path} (hrooted : w.files.Rooted)
    (hoff : ∀ l, w.files.homeOf? db = some l → ∀ k ∈ databasePlaces l, k ∉ places) (r : Produced) :
    EndsIn (recordRun db p r) w fun after => after.files.current = w.files.current ∧ after.files.Rooted ∧
      ∀ k ∈ places, after.files.node? k = w.files.node? k := by
  cases hhome : w.files.homeOf? db with
  | none =>
    have hsame (after : World σ) (h : after.files = w.files) : after.files.current = w.files.current ∧
        after.files.Rooted ∧ ∀ k ∈ places, after.files.node? k = w.files.node? k := by
      rw [h]
      exact ⟨rfl, hrooted, fun _ _ => rfl⟩
    exact (recordRun_ends_of_none hhome p r).imp (fun _ => hsame) fun _ _ h => hsame _ h.2
  | some l =>
    have haside (after : World σ) (h : Around l w.files after.files) : after.files.current = w.files.current ∧
        after.files.Rooted ∧ ∀ k ∈ places, after.files.node? k = w.files.node? k :=
      ⟨h.current, h.rooted hrooted, fun k hk => (h.alike hrooted).node k fun hkl => hoff l hhome k hkl hk⟩
    exact (recordRun_ends hhome p r).imp (fun _ _ h => haside _ h.1) fun _ _ h => haside _ h.2.1

theorem recordRun_apart (h : World.Observed start names w w') {db : Path}
    (hartifact : w.files.Avoids (watched start names) p.artifact)
    (hdb : Handle.NameAvoids w.files (watched start names) db) (r : Produced) :
    Both (recordRun db p r) (recordRun db p r) w w'
      (fun id t id' t' => id' = id ∧ World.Observed start names t t') (World.Observed start names) := by
  have hagree := h.files.agreeOff
  have hoff (l : Location) (hl : w.files.homeOf? db = some l) : ∀ k ∈ databasePlaces l, k ∉ watched start names :=
    hdb.off hl
  have hoff' (l : Location) (hl : w'.files.homeOf? db = some l) : ∀ k ∈ databasePlaces l, k ∉ watched start names :=
    hoff l ((Handle.homeOf?_eq hagree.current db).symm.trans hl)
  have hopen : Both (Handle.openAt db) (Handle.openAt db) w.files w'.files
      (fun handle t handle' t' => handle' = handle ∧ handle.Aside (watched start names) ∧
        AgreeOff (watched start names) t t' ∧ sha256File t' p.artifact = sha256File t p.artifact ∧
        AgreeOff (watched start names) t t') (AgreeOff (watched start names)) := by
    refine (Handle.openAt_both hdb hagree.inStep).imp ?_ fun t t' ht => ht.agreeOff
    rintro handle t handle' t' ⟨hsame, haside, ht⟩
    have hartifact' := sha256File_congr (ht.agreeOff.find (ht.avoids hartifact))
    exact ⟨hsame, haside, ht.agreeOff, hartifact', ht.agreeOff⟩
  have hkept := (recordRun_same (p := p) r hopen).and (recordRun_kept h.files.rooted hoff r)
    (recordRun_kept h.files.rooted' hoff' r)
  refine hkept.imp ?_ ?_
  · rintro id _ id' _ ⟨⟨hid, files, files', rfl, rfl, ht⟩, ⟨hcurrent, hrooted, hnode⟩, -, hrooted', hnode'⟩
    exact ⟨hid, h.withFiles (h.files.of_kept hcurrent hrooted hrooted' ht hnode hnode')⟩
  · rintro _ _ ⟨⟨files, files', rfl, rfl, ht⟩, ⟨hcurrent, hrooted, hnode⟩, -, hrooted', hnode'⟩
    exact h.withFiles (h.files.of_kept hcurrent hrooted hrooted' ht hnode hnode')

theorem recordRun_lookedAt (h : World.Observed start names w w') (hseparate : start.Separate names) {db path : Path}
    {o : Opening} (hartifact : w.files.Avoids (watched start names) p.artifact)
    (hdb : RecordsIn start names w.files db path o) (r : Produced) :
    Both (recordRun db p r) (recordRun db p r) w w'
      (fun id t id' t' => id' = id ∧ World.Observed start names t t') (World.Observed start names) := by
  have hl := hdb.home
  have hhome : w.files.homeOf? db = some (w.files.spelledPlace path) :=
    Handle.homeOf?_eq_some.2 ⟨path, o, hdb.address, rfl⟩
  have hboth := h.files.openAt_both hseparate hdb
  generalize w.files.spelledPlace path = l at hl hhome hboth
  have hhome' : w'.files.homeOf? db = some l := (Handle.homeOf?_eq h.files.agreeOff.current db).trans hhome
  have hopen : Both (Handle.openAt db) (Handle.openAt db) w.files w'.files
      (fun handle t handle' t' => handle' = handle ∧ handle.Aside (databasePlaces l)ᶜ ∧
        AgreeOff (databasePlaces l)ᶜ t t' ∧ sha256File t' p.artifact = sha256File t p.artifact ∧
        FileSystem.Observed start names t t') (FileSystem.Observed start names) := by
    rcases hboth.cases with ⟨handle, t, handle', t', hw, hw', hsame, rfl, ht, hself⟩ | ⟨e, t, t', hw, hw', ht⟩
    · obtain ⟨-, haround, -⟩ := (Handle.openAt_ends hhome).of_ok hw
      have hartifact' := sha256File_congr (ht.agreeOff.find (haround.avoids h.files.rooted hartifact))
      refine both_of_ok hw hw' ⟨hsame, ?_, hself, hartifact', ht⟩
      rintro l writable ⟨⟩
      exact ⟨hl.1, fun k hk hno => hno hk⟩
    · exact both_of_error hw hw' ht
  have haround : EndsIn (recordRun db p r) w fun t => Around l w.files t.files :=
    (recordRun_ends hhome p r).imp (fun _ _ h => h.1) fun _ _ h => h.2.1
  have haround' : EndsIn (recordRun db p r) w' fun t => Around l w'.files t.files :=
    (recordRun_ends hhome' p r).imp (fun _ _ h => h.1) fun _ _ h => h.2.1
  refine ((recordRun_same (p := p) r hopen).and haround haround').imp ?_ ?_
  · rintro id _ id' _ ⟨⟨hid, files, files', rfl, rfl, ht⟩, haround, haround'⟩
    exact ⟨hid, h.withFiles (h.files.of_around hseparate hl haround haround' (.of_agreeOff hl.1 ht))⟩
  · rintro _ _ ⟨⟨files, files', rfl, rfl, ht⟩, -⟩
    exact h.withFiles ht

theorem recordRun_observed (h : World.Observed start names w w') (hseparate : start.Separate names) {db : Path}
    (hartifact : w.files.Avoids (watched start names) p.artifact)
    (hdb : MayRecord start names w.files db) (r : Produced) :
    Both (recordRun db p r) (recordRun db p r) w w'
      (fun id t id' t' => id' = id ∧ World.Observed start names t t') (World.Observed start names) := by
  rcases hdb with hdb | ⟨path, o, hdb⟩
  · exact recordRun_apart h hartifact hdb r
  · exact recordRun_lookedAt h hseparate hartifact hdb r

theorem execute_observed (h : World.Observed start names w w') (hseparate : start.Separate names)
    (havoids : ({ p with db := none } : Plan).Avoids (watched start names) around w.files w.engine)
    (hdb : ∀ db, p.db = some db → MayRecord start names w.files db) :
    Both (execute around p) (execute around p) w w'
      (fun output t output' t' => output' = output ∧ World.Observed start names t t')
      (World.Observed start names) := by
  unfold execute
  refine .bind ((produce_observed h havoids).imp ?_ fun _ _ h => h)
  rintro _ middle r middle' ⟨rfl, hmiddle, hstep⟩
  dsimp only
  cases hp : p.db with
  | none => exact ⟨rfl, hmiddle⟩
  | some db =>
    have hrecorded := recordRun_observed hmiddle hseparate (hstep.avoids havoids.artifact)
      (hstep.mayRecord (hdb db hp)) r
    refine .bind (hrecorded.imp ?_ fun _ _ h => h)
    rintro id t _ t' ⟨rfl, ht⟩
    split_ifs
    · exact ⟨rfl, ht.printed _⟩
    · exact ⟨rfl, ht⟩

end Command

/-! ## The commands -/

/-- **A run that has no use for what is at these places** but to record itself there. -/
structure SliceOptions.Avoids (o : SliceOptions) (places : Set Location) (around : Surroundings σ)
    (files : FileSystem) (engine : σ) : Prop where
  config : ∀ path, o.config = some path → files.Avoids places path
  plan : ∀ p, o.planned? files around.engineVariable = some p →
    ({ p with db := none } : Plan).Avoids places around files engine

/-- **A run that may be recorded** while these databases are looked at. -/
def SliceOptions.MayRecord (o : SliceOptions) (around : Surroundings σ) (start : FileSystem) (names : List Path)
    (files : FileSystem) : Prop :=
  ∀ p db, o.planned? files around.engineVariable = some p → p.db = some db → FileSystem.MayRecord start names files db

namespace Command

variable {around : Surroundings σ} {w w' : World σ} {o : SliceOptions}

theorem slice_of_settings_error {e : SettingsError}
    (hload : Settings.loadOrStandard w.files o.config = .error e) :
    slice around o w = .error ⟨some "Failed to load slicer config", .settings e⟩ w := by
  have hfiles : (files : Command σ FileSystem) w = .ok w.files w := rfl
  unfold slice
  rw [bind_of_ok hfiles, hload]
  rfl

theorem loadOrStandard_congr {places : Set Location} {files files' : FileSystem} {config : Option Path}
    (h : AgreeOff places files files') (havoids : ∀ path, config = some path → files.Avoids places path) :
    Settings.loadOrStandard files' config = Settings.loadOrStandard files config := by
  cases config with
  | none => rfl
  | some path =>
    have hread := h.read (havoids path rfl)
    simp only [Settings.loadOrStandard, Settings.load, readText, hread]

theorem slice_observed (h : World.Observed start names w w') (hseparate : start.Separate names)
    (havoids : o.Avoids (watched start names) around w.files w.engine)
    (hdb : o.MayRecord around start names w.files) :
    Both (slice around o) (slice around o) w w'
      (fun output t output' t' => output' = output ∧ World.Observed start names t t')
      (World.Observed start names) := by
  have hload := loadOrStandard_congr h.files.agreeOff havoids.config
  cases hsettings : Settings.loadOrStandard w.files o.config with
  | error e =>
    rw [hsettings] at hload
    exact both_of_error (slice_of_settings_error hsettings) (slice_of_settings_error hload) h
  | ok settings =>
    rw [hsettings] at hload
    cases hplan : o.plan settings around.engineVariable with
    | error e =>
      exact both_of_error (slice_of_plan_error hsettings hplan) (slice_of_plan_error hload hplan)
        (h.warned o.warnings)
    | ok p =>
      have hplanned := planned?_of_loads hsettings hplan
      unfold Both
      rw [slice_of_planned hplanned, slice_of_planned (planned?_of_loads hload hplan)]
      exact execute_observed (h.warned o.warnings) hseparate (havoids.plan p hplanned) fun db hp =>
        hdb p db hplanned hp

end Command
end SourceSlice
