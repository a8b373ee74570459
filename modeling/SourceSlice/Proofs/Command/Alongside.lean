import SourceSlice.Proofs.Batch.Reading
import SourceSlice.Proofs.Command.Persistence
import SourceSlice.Proofs.Results.InStep
/-!
# Two runs side by side

A plan looks for its files at some places (`Plan.Avoids` is about those that it leaves out), and two runs of it in trees
that agree at the others do the same (`execute_both`).  Up to the output file they stay in step (`produce_both`); it is
with the recording of the run, the last change, that their times come apart.
-/
namespace SourceSlice

open Work FileSystem

variable {σ α : Type} {places : Set Location}

/-- **Two runs have done the same**: they have called the engine alike and printed the same, and their files are as
`sameFiles` says.  The clock and the warnings do not count. -/
structure World.Alongside (sameFiles : FileSystem → FileSystem → Prop) (before before' after after' : World σ) :
    Prop where
  files : sameFiles after.files after'.files
  engine : after'.engine = after.engine
  calls : ∃ made, after.calls = before.calls ++ made ∧ after'.calls = before'.calls ++ made
  stdout : ∃ printed, after.stdout = before.stdout ++ printed ∧ after'.stdout = before'.stdout ++ printed

abbrev World.InStep (places : Set Location) (v v' w w' : World σ) : Prop :=
  World.Alongside (FileSystem.InStep places v.files) v v' w w'

abbrev World.SameButTimes (places : Set Location) (v v' w w' : World σ) : Prop :=
  World.Alongside (AgreeButTimes places) v v' w w'

/-- **Two runs have had the same effects**: off some places they leave the same but for times, and at these a rooted
tree stays as it was. -/
structure World.SameEffects (places : Set Location) (v v' w w' : World σ) : Prop where
  same : World.SameButTimes places v v' w w'
  kept : v.files.Rooted → ∀ k ∈ places, w.files.node? k = v.files.node? k
  kept' : v'.files.Rooted → ∀ k ∈ places, w'.files.node? k = v'.files.node? k

/-- Surroundings in which the same programs are found and do the same. -/
structure Surroundings.SamePrograms (around around' : Surroundings σ) : Prop where
  searched : around'.searchPath = around.searchPath
  program : around'.program = around.program

/-- **A plan that has no use for what is at these places**: nothing is looked for there in carrying it out. -/
structure Plan.Avoids (p : Plan) (places : Set Location) (around : Surroundings σ) (files : FileSystem) (engine : σ) :
    Prop where
  artifact : files.Avoids places p.artifact
  programs : ∀ path ∈ programPaths around.searchPath p.engine, files.Avoids places path
  table : ∀ path, p.input = .table path → files.Avoids places path
  rows : ∀ row ∈ p.input.rowsIn files, files.Avoids places ⟨row.file⟩
  /-- No answer of the engine names a source there. -/
  sources : ∀ kept ∈ (((Command.slicerOf around files p).run files p.input).leaves (.start engine)).answers,
    ∀ file ∈ kept.2.files, file ≠ "" → files.Avoids places ⟨file⟩
  output : p.print = false → files.Avoids places p.output
  database : ∀ db, p.db = some db → Handle.NameAvoids files places db

namespace World.Alongside

variable {sameFiles sameFiles' : FileSystem → FileSystem → Prop} {v v' w w' : World σ}

theorem imp (h : Alongside sameFiles v v' w w') (hfiles : sameFiles w.files w'.files → sameFiles' w.files w'.files) :
    Alongside sameFiles' v v' w w' := ⟨hfiles h.files, h.engine, h.calls, h.stdout⟩

theorem withFiles (h : Alongside sameFiles v v' w w') {files files' : FileSystem} (hfiles : sameFiles' files files') :
    Alongside sameFiles' v v' { w with files } { w' with files := files' } :=
  ⟨hfiles, h.engine, h.calls, h.stdout⟩

theorem ticked (h : Alongside sameFiles v v' w w') :
    Alongside sameFiles v v' { w with ticks := w.ticks + 1 } { w' with ticks := w'.ticks + 1 } :=
  ⟨h.files, h.engine, h.calls, h.stdout⟩

theorem warned (h : Alongside sameFiles v v' w w') (warnings warnings' : List String) :
    Alongside sameFiles v v' (w.warned warnings) (w'.warned warnings') :=
  ⟨h.files, h.engine, h.calls, h.stdout⟩

theorem of_warned {warnings warnings' : List String}
    (h : Alongside sameFiles (v.warned warnings) (v'.warned warnings') w w') : Alongside sameFiles v v' w w' :=
  ⟨h.files, h.engine, h.calls, h.stdout⟩

theorem printed (h : Alongside sameFiles v v' w w') (text : String) :
    Alongside sameFiles v v' { w with stdout := w.stdout ++ text } { w' with stdout := w'.stdout ++ text } where
  files := h.files
  engine := h.engine
  calls := h.calls
  stdout := by
    obtain ⟨printed, hw, hw'⟩ := h.stdout
    exact ⟨printed ++ text, by rw [hw, String.append_assoc], by rw [hw', String.append_assoc]⟩

theorem called (h : Alongside sameFiles v v' w w') (engine : σ) (calls : List (Path × List String)) :
    Alongside sameFiles v v' { w with engine, calls := w.calls ++ calls } { w' with engine, calls := w'.calls ++ calls }
    where
  files := h.files
  engine := rfl
  calls := by
    obtain ⟨made, hw, hw'⟩ := h.calls
    exact ⟨made ++ calls, by rw [hw, List.append_assoc], by rw [hw', List.append_assoc]⟩
  stdout := h.stdout

end World.Alongside

theorem World.inStep_refl {w w' : World σ} (hfiles : AgreeOff places w.files w'.files)
    (hengine : w'.engine = w.engine) : World.InStep places w w' w w' where
  files := hfiles.inStep
  engine := hengine
  calls := ⟨[], (List.append_nil _).symm, (List.append_nil _).symm⟩
  stdout := ⟨"", String.append_empty.symm, String.append_empty.symm⟩

theorem World.Alongside.butTimes {v v' w w' : World σ} (h : World.InStep places v v' w w') :
    World.SameButTimes places v v' w w' :=
  h.imp fun hfiles => hfiles.agreeOff.butTimes

namespace Command

variable {around around' : Surroundings σ} {p : Plan} {v v' w w' : World σ}

theorem slicerOf_congr (hprograms : around.SamePrograms around') (hfiles : AgreeOff places w.files w'.files)
    (havoids : p.Avoids places around w.files w.engine) : slicerOf around' w'.files p = slicerOf around w.files p := by
  unfold slicerOf
  rw [hprograms.searched, hprograms.program,
    Engine.spawned_congr fun path hpath => hfiles.find (havoids.programs path hpath)]

theorem sliceInput_both (hprograms : around.SamePrograms around') (hfiles : AgreeOff places w.files w'.files)
    (havoids : p.Avoids places around w.files w.engine) (h : World.InStep places v v' w w') :
    Both (sliceInput around p) (sliceInput around' p) w w'
      (fun output t output' t' => output' = output ∧ World.InStep places v v' t t') (World.InStep places v v') := by
  have hrun : (slicerOf around w.files p).run w'.files p.input (.start w.engine)
      = (slicerOf around w.files p).run w.files p.input (.start w.engine) := by
    refine Slicer.run_congr _ (fun path hpath => hfiles.find (havoids.table path hpath))
      (fun row hrow => hfiles.isFile (havoids.rows row hrow)) _ fun kept hkept file hfile hname => ?_
    exact hfiles.read (havoids.sources kept hkept file hfile hname)
  unfold Both sliceInput
  dsimp only
  rw [slicerOf_congr hprograms hfiles havoids, h.engine, hrun]
  cases (slicerOf around w.files p).run w.files p.input (.start w.engine) with
  | ok output s => exact ⟨rfl, h.called s.engine _⟩
  | error e s => exact ⟨rfl, h.called s.engine _⟩

theorem both_ofStoring {context : String} {work work' : Storing α} {done : α → FileSystem → α → FileSystem → Prop}
    {failed : FileSystem → FileSystem → Prop} (h : Both work work' w.files w'.files done failed) :
    Both (ofStoring context work) (ofStoring context work') w w'
      (fun a t a' t' => ∃ files files', t = { w with files } ∧ t' = { w' with files := files' } ∧
        done a files a' files')
      (fun t t' => ∃ files files', t = { w with files } ∧ t' = { w' with files := files' } ∧ failed files files') := by
  rcases h.cases with ⟨a, t, a', t', hw, hw', h⟩ | ⟨e, t, t', hw, hw', h⟩
  · exact both_of_ok (by rw [ofStoring, hw]) (by rw [ofStoring, hw']) ⟨t, t', rfl, rfl, h⟩
  · exact both_of_error (by rw [ofStoring, hw]) (by rw [ofStoring, hw']) ⟨t, t', rfl, rfl, h⟩

theorem deliver_both (houtput : p.print = false → v.files.Avoids places p.output) (output : BatchOutput)
    (h : World.InStep places v v' w w') :
    Both (deliver p output) (deliver p output) w w' (fun _ t _ t' => World.InStep places v v' t t')
      (World.InStep places v v') := by
  unfold deliver
  cases hprint : p.print with
  | true => exact h.printed _
  | false =>
    refine .bind (both_of_ok rfl rfl ?_)
    unfold BatchOutput.write
    rcases h.files.write (houtput hprint) (Codec.writeBroad output).toUTF8 with
      ⟨fault, hwrite, hwrite'⟩ | ⟨t, t', hwrite, hwrite', ht⟩
    · rw [hwrite, hwrite']
      exact ⟨rfl, h⟩
    · rw [hwrite, hwrite']
      exact (((h.withFiles ht).printed _).printed _).printed _

theorem produce_both (hprograms : around.SamePrograms around') (hfiles : AgreeOff places w.files w'.files)
    (havoids : p.Avoids places around w.files w.engine) (hengine : w'.engine = w.engine) :
    Both (produce around p) (produce around' p) w w'
      (fun r t r' t' => r'.output = r.output ∧ World.InStep places w w' t t') (World.InStep places w w') := by
  have hstart : World.InStep places w w' w w' := World.inStep_refl hfiles hengine
  have hartifact := hfiles.isFile havoids.artifact
  unfold produce
  refine .bind (both_of_ok rfl rfl ?_)
  dsimp only
  rw [hartifact]
  split
  · exact .bind ⟨rfl, hstart⟩
  have hsliced := @sliceInput_both σ places around around' p w w' { w with ticks := w.ticks + 1 }
    { w' with ticks := w'.ticks + 1 } hprograms hfiles havoids hstart.ticked
  refine .bind (both_of_ok rfl rfl (.bind (hsliced.imp ?_ fun _ _ h => h)))
  rintro output middle _ middle' ⟨rfl, hmiddle⟩
  refine .bind (both_of_ok rfl rfl (.bind ((deliver_both havoids.output _ hmiddle.ticked).imp ?_ fun _ _ h => h)))
  exact fun _ t _ t' ht => ⟨rfl, ht⟩

theorem sha256File_congr {files files' : FileSystem} {artifact : Path}
    (h : files'.find artifact = files.find artifact) : sha256File files' artifact = sha256File files artifact := by
  rw [sha256File, sha256File, h]

theorem recordRun_both {db : Path} {r r' : Produced} (hartifact : v.files.Avoids places p.artifact)
    (hdb : Handle.NameAvoids v.files places db) (houtput : r'.output = r.output) (h : World.InStep places v v' w w') :
    Both (recordRun db p r) (recordRun db p r') w w'
      (fun id t id' t' => id' = id ∧ World.SameButTimes places v v' t t') (World.SameButTimes places v v') := by
  unfold recordRun
  refine .bind ((both_ofStoring (Handle.openAt_both hdb h.files)).imp ?_ ?_)
  · rintro handle _ _ _ ⟨opened, opened', rfl, rfl, rfl, hhandle, hopened⟩
    have hstep := h.withFiles hopened
    have hhash := sha256File_congr (hopened.agreeOff.find (hopened.avoids hartifact))
    refine .bind (both_of_ok rfl rfl ?_)
    dsimp only
    rw [hhash, houtput]
    cases sha256File opened p.artifact with
    | error f => exact .bind ⟨rfl, hstep.butTimes⟩
    | ok hash =>
      let run : NewRun := ⟨p.artifact.text, some hash, p.mode, r.startedAt, r.finishedAt⟩
      refine .bind (both_of_ok rfl rfl (.bind ((both_ofStoring
        (Handle.insertRun_both hhandle hopened run r.output r'.startedAt r'.finishedAt)).imp ?_ ?_)))
      · rintro ⟨id, _⟩ _ ⟨_, _⟩ _ ⟨inserted, inserted', rfl, rfl, rfl, hinserted⟩
        exact ⟨rfl, hstep.withFiles hinserted⟩
      · rintro _ _ ⟨failed, failed', rfl, rfl, hfailed⟩
        exact (hstep.withFiles hfailed).butTimes
  · rintro _ _ ⟨failed, failed', rfl, rfl, hfailed⟩
    exact (h.withFiles hfailed).butTimes

theorem execute_both (hprograms : around.SamePrograms around') (hfiles : AgreeOff places w.files w'.files)
    (havoids : p.Avoids places around w.files w.engine) (hengine : w'.engine = w.engine) :
    Both (execute around p) (execute around' p) w w'
      (fun output t output' t' => output' = output ∧ World.SameButTimes places w w' t t')
      (World.SameButTimes places w w') := by
  unfold execute
  refine .bind ((produce_both hprograms hfiles havoids hengine).imp ?_ fun _ _ h => h.butTimes)
  rintro r middle r' middle' ⟨houtput, hmiddle⟩
  dsimp only
  cases hdb : p.db with
  | none => exact ⟨houtput, hmiddle.butTimes⟩
  | some db =>
    refine .bind ((recordRun_both havoids.artifact (havoids.database db hdb) houtput hmiddle).imp ?_
      fun _ _ h => h)
    rintro id t _ t' ⟨rfl, ht⟩
    split_ifs
    · exact ⟨houtput, ht.printed _⟩
    · exact ⟨houtput, ht⟩

theorem execute_withOutput (hprint : p.print = true) (output : Path) :
    execute around { p with output } = execute around p := by
  unfold execute produce deliver
  simp only [hprint, if_true]
  rfl

theorem not_mem_places {files files' : FileSystem} {engine : σ} (havoids : p.Avoids places around files engine)
    (hfiles : AgreeOff places files files') : ∀ k ∈ places, k ∉ p.places files' := by
  rintro k hk (⟨hprint, hlocate⟩ | ⟨l, hl, hmem⟩)
  · obtain ⟨hsame, hoff⟩ := hfiles.locateForWriting (havoids.output hprint)
    rw [hsame] at hlocate
    exact hoff k hlocate hk
  · obtain ⟨db, hdb, hhome⟩ := Option.bind_eq_some_iff.1 hl
    rw [Handle.homeOf?_eq hfiles.current] at hhome
    exact (havoids.database db hdb).off hhome k hmem hk

theorem execute_kept (around : Surroundings σ) (hoff : ∀ k ∈ places, k ∉ p.places w.files) :
    EndsIn (execute around p) w fun t => w.files.Rooted → ∀ k ∈ places, t.files.node? k = w.files.node? k := by
  by_cases hrooted : w.files.Rooted
  · exact (execute_alike hrooted).imp (fun _ _ h _ k hk => h.node k (hoff k hk)) fun _ _ h _ k hk =>
      h.node k (hoff k hk)
  · unfold EndsIn Ends
    split
    · exact fun h => absurd h hrooted
    · exact fun h => absurd h hrooted

end Command
end SourceSlice
