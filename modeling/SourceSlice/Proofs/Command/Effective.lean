import SourceSlice.Proofs.Command.Alongside
/-!
# Effective settings

What a run is told comes from options, from a settings file and from the environment, and some of it is masked by the
rest.  `Effective` is what is left, and nothing else of it matters: two runs with the same effective settings do the
same (`slice_effective`), in trees that agree but for their settings files.
-/
namespace SourceSlice

open Work FileSystem

variable {σ : Type} {places : Set Location}

structure Effective where
  engine : Path
  mode : SliceMode
  verify : Bool
  print : Bool
  entry : Option String
  output : Option Path
  db : Option Path
deriving DecidableEq, Repr

/-- **What is effective of options, a settings file and the environment**: a table masks the entry point and printing,
and printing masks the output file. -/
def SliceOptions.effective (o : SliceOptions) (s : Settings) (engineVariable : Option String) : Effective :=
  let print := o.print && o.table.isNone
  { engine := (o.engine <|> s.enginePath <|> (engineVariable.filter (· ≠ "")).map Path.mk).getD ⟨"llvm-src-slicer"⟩
    mode := if o.bidirectional then .bidirectional else if o.forward then .forward else .backward
    verify := o.dbg || s.verify
    print
    entry := if o.table.isSome then none else some (o.entry.getD s.defaultEntry)
    output := if print then none else some (o.output.getD s.output)
    db := o.db <|> s.db }

namespace Effective

variable {e : Effective} {artifact : Path} {table : Option Path} {criterion : Option String} {output : Path} {p : Plan}

def plan (e : Effective) (artifact : Path) (table : Option Path) (criterion : Option String) (output : Path) :
    Except SliceError Plan :=
  (BatchInput.choose table criterion e.entry).map fun input =>
    { artifact, input, mode := e.mode, engine := e.engine, options := ⟨e.verify⟩, print := e.print, output, db := e.db }

theorem plan_error {error : SliceError} (h : e.plan artifact table criterion output = .error error) (output' : Path) :
    e.plan artifact table criterion output' = .error error := by
  unfold plan at h ⊢
  cases hinput : BatchInput.choose table criterion e.entry with
  | error e => rw [hinput] at h; exact h
  | ok input => rw [hinput] at h; cases h

theorem plan_ok (h : e.plan artifact table criterion output = .ok p) : p.print = e.print ∧ p.output = output ∧
    ∀ output', e.plan artifact table criterion output' = .ok { p with output := output' } := by
  unfold plan at h ⊢
  cases hinput : BatchInput.choose table criterion e.entry with
  | error e => rw [hinput] at h; cases h
  | ok input => rw [hinput] at h; cases h; exact ⟨rfl, rfl, fun _ => rfl⟩

end Effective

namespace SliceOptions

theorem plan_eq (o : SliceOptions) (s : Settings) (engineVariable : Option String) :
    o.plan s engineVariable
      = (o.effective s engineVariable).plan o.artifact o.table o.criterion (o.output.getD s.output) := by
  have hinput : BatchInput.choose o.table o.criterion (some (o.entry.getD s.defaultEntry))
      = BatchInput.choose o.table o.criterion (o.effective s engineVariable).entry := by
    unfold effective
    cases o.table with
    | none => rfl
    | some path => cases o.criterion <;> rfl
  have hengine : Settings.engineOr (o.engine <|> s.enginePath) engineVariable
      = (o.effective s engineVariable).engine := by
    unfold effective Settings.engineOr Settings.environmentEngine
    cases o.engine <;> cases s.enginePath <;> cases engineVariable.filter (· ≠ "") <;> rfl
  have hverify : (s.engineOptions.verify || o.dbg) = (o.effective s engineVariable).verify := Bool.or_comm _ _
  rw [plan, Effective.plan, hinput, hengine, hverify]
  rfl

theorem effective_output (o : SliceOptions) (s : Settings) (engineVariable : Option String) :
    (o.effective s engineVariable).output
      = if (o.effective s engineVariable).print then none else some (o.output.getD s.output) := rfl

end SliceOptions

namespace Command

variable {around around' : Surroundings σ} {p : Plan} {w w' : World σ}

theorem planned?_of_loads {o : SliceOptions} {s : Settings} {engineVariable : Option String}
    (hload : Settings.loadOrStandard w.files o.config = .ok s) (hplan : o.plan s engineVariable = .ok p) :
    o.planned? w.files engineVariable = some p := by
  rw [SliceOptions.planned?, hload]
  dsimp only
  rw [hplan]
  rfl

theorem slice_of_plan_error {o : SliceOptions} {s : Settings} {e : SliceError}
    (hload : Settings.loadOrStandard w.files o.config = .ok s) (hplan : o.plan s around.engineVariable = .error e) :
    slice around o w = .error ⟨none, .slicing e⟩ (w.warned o.warnings) := by
  have hfiles : (files : Command σ FileSystem) w = .ok w.files w := rfl
  unfold slice
  rw [bind_of_ok hfiles, hload, bind_of_ok (ofExcept_ok _ _ s w), bind_of_ok (forM_warn o.warnings w), hplan]
  rfl

/-! ## Runs with the same settings -/

/-- **Two runs of the same input with the same effective settings.**  Their files agree off some places, which are used
for nothing but to load the settings from. -/
structure SameSettings (places : Set Location) (around around' : Surroundings σ) (o o' : SliceOptions) (s s' : Settings)
    (w w' : World σ) : Prop where
  artifact : o'.artifact = o.artifact
  table : o'.table = o.table
  criterion : o'.criterion = o.criterion
  loads : Settings.loadOrStandard w.files o.config = .ok s
  loads' : Settings.loadOrStandard w'.files o'.config = .ok s'
  effective : o'.effective s' around'.engineVariable = o.effective s around.engineVariable
  programs : around.SamePrograms around'
  engine : w'.engine = w.engine
  files : AgreeOff places w.files w'.files
  unused : ∀ p, o.plan s around.engineVariable = .ok p → p.Avoids places around w.files w.engine

variable {o o' : SliceOptions} {s s' : Settings}

namespace SameSettings

variable (h : SameSettings places around around' o o' s s' w w')

include h

theorem plan_eq : o'.plan s' around'.engineVariable = (o.effective s around.engineVariable).plan o.artifact o.table
    o.criterion (o'.output.getD s'.output) := by
  rw [SliceOptions.plan_eq, h.effective, h.artifact, h.table, h.criterion]

theorem output_eq (hprint : (o.effective s around.engineVariable).print ≠ true) :
    o'.output.getD s'.output = o.output.getD s.output := by
  have houtput := congrArg Effective.output h.effective
  rw [SliceOptions.effective_output, SliceOptions.effective_output, h.effective, if_neg hprint, if_neg hprint]
    at houtput
  exact Option.some.inj houtput

theorem slice_eq {p : Plan} (hplan : o.plan s around.engineVariable = .ok p) :
    slice around o w = execute around p (w.warned o.warnings) ∧
      slice around' o' w' = execute around' p (w'.warned o'.warnings) := by
  refine ⟨slice_of_planned (planned?_of_loads h.loads hplan), ?_⟩
  rw [SliceOptions.plan_eq] at hplan
  obtain ⟨hprint, houtput, hplans⟩ := Effective.plan_ok hplan
  rw [slice_of_planned (planned?_of_loads h.loads' (h.plan_eq.trans (hplans _)))]
  by_cases hp : p.print = true
  · rw [execute_withOutput hp]
  · rw [h.output_eq (hprint ▸ hp), ← houtput]

end SameSettings

/-- **Only the effective settings of a run matter**: two runs with the same ones return the same output or the same
error, call the engine alike, print the same and leave the same files but for times.  Under a table neither an entry
point nor printing counts, whether from the options or from the settings file. -/
theorem slice_effective (h : SameSettings places around around' o o' s s' w w') :
    ((∃ output t t', slice around o w = .ok output t ∧ slice around' o' w' = .ok output t' ∧
        World.SameEffects places w w' t t') ∨
      ∃ f t t', slice around o w = .error f t ∧ slice around' o' w' = .error f t' ∧
        World.SameEffects places w w' t t') ∧
    (o.table.isSome → ∀ entry print defaultEntry engineVariable,
      ({ o with entry, print } : SliceOptions).effective { s with defaultEntry } engineVariable
        = o.effective s engineVariable) := by
  refine ⟨?_, fun htable entry print defaultEntry engineVariable => ?_⟩
  · cases hplan : o.plan s around.engineVariable with
    | error e =>
      have hplan' : o'.plan s' around'.engineVariable = .error e := by
        rw [h.plan_eq]
        rw [SliceOptions.plan_eq] at hplan
        exact Effective.plan_error hplan _
      exact .inr ⟨_, _, _, slice_of_plan_error h.loads hplan, slice_of_plan_error h.loads' hplan',
        (World.inStep_refl h.files h.engine).butTimes.warned _ _, fun _ _ _ => rfl, fun _ _ _ => rfl⟩
    | ok p =>
      obtain ⟨hslice, hslice'⟩ := h.slice_eq hplan
      have havoids := h.unused p hplan
      -- the warnings, which differ, come before all else and change nothing that is compared
      have hboth : Both (execute around p) (execute around' p) (w.warned o.warnings) (w'.warned o'.warnings) _ _ :=
        execute_both h.programs h.files havoids h.engine
      have hkept := hboth.and (execute_kept around (not_mem_places havoids ⟨rfl, fun _ _ => rfl⟩))
        (execute_kept around' (not_mem_places havoids h.files))
      rw [hslice, hslice']
      rcases hkept.cases with
        ⟨output, t, _, t', hrun, hrun', ⟨rfl, hsame⟩, hstayed, hstayed'⟩ |
        ⟨f, t, t', hrun, hrun', hsame, hstayed, hstayed'⟩
      · exact .inl ⟨_, t, t', hrun, hrun', hsame.of_warned, hstayed, hstayed'⟩
      · exact .inr ⟨f, t, t', hrun, hrun', hsame.of_warned, hstayed, hstayed'⟩
  · obtain ⟨path, hpath⟩ := Option.isSome_iff_exists.1 htable
    simp [SliceOptions.effective, hpath]

def settingsFile (text : String) : World Unit := oneSource [(["c.json"], .file (.bytes text.toUTF8) false)]

theorem agreeOff_settingsFile (a b : String) : AgreeOff {["c.json"]} (settingsFile a).files (settingsFile b).files where
  current := rfl
  node k hk := by
    have hne : ["c.json"] ≠ k := fun h => hk h.symm
    simp only [settingsFile, oneSource, node?, List.cons_append, List.nil_append, Association.get?, if_neg hne]

def allInFile : World Unit :=
  settingsFile ("\x7b\"engine_path\": \"llvm-src-slicer\", \"default_entry\": \"start\", \"verify\": true, "
    ++ "\"output\": \"out.json\", \"db\": \"runs.db\"\x7d")

def othersInFile : World Unit := settingsFile "\x7b\"engine_path\": \"./other\", \"output\": \"other.json\"\x7d"

def fileOptions : SliceOptions :=
  { artifact := ⟨"prog.bc"⟩, criterion := some "a.c##1#&v", config := some ⟨"c.json"⟩, bidirectional := true }

def winningOptions : SliceOptions :=
  { fileOptions with
    forward := true, engine := some ⟨"llvm-src-slicer"⟩, entry := some "start", dbg := true, output := some ⟨"out.json"⟩,
    db := some ⟨"runs.db"⟩ }

def reportingLater : Surroundings Unit :=
  { reportingLineOne with engineVariable := some "./other", clock := fun _ => "1" }

def settingsPlan : Plan :=
  { artifact := ⟨"prog.bc"⟩, input := .adHoc "a.c##1#&v" "start", mode := .bidirectional, engine := ⟨"llvm-src-slicer"⟩,
    options := ⟨true⟩, print := false, output := ⟨"out.json"⟩, db := some ⟨"runs.db"⟩ }

theorem avoids_settingsPlan :
    settingsPlan.Avoids {["c.json"]} reportingLineOne allInFile.files allInFile.engine where
  artifact := by decide +kernel
  programs := by decide +kernel
  table := nofun
  rows := by decide +kernel
  sources := by decide +kernel
  output := by decide +kernel
  database db hdb p o haddress := by
    have hname : Address.ofName? "runs.db" = some (.file ⟨"runs.db"⟩ {}) := by decide +kernel
    obtain rfl : db = ⟨"runs.db"⟩ := (Option.some.inj hdb).symm
    rw [hname] at haddress
    cases haddress
    exact ⟨by decide +kernel, by decide +kernel, nofun, by rintro _ (rfl | rfl | rfl) <;> decide +kernel⟩

theorem slice_effective_winning_options :
    ∃ s s', SameSettings {["c.json"]} reportingLineOne reportingLater fileOptions winningOptions s s' allInFile
      othersInFile ∧
      ∃ t t', slice reportingLineOne fileOptions allInFile = .ok ⟨["int v;\n"], []⟩ t ∧
        slice reportingLater winningOptions othersInFile = .ok ⟨["int v;\n"], []⟩ t' ∧
        World.SameEffects {["c.json"]} allInFile othersInFile t t' := by
  let s : Settings := ⟨some ⟨"llvm-src-slicer"⟩, "start", true, ⟨"out.json"⟩, some ⟨"runs.db"⟩⟩
  let s' : Settings := { Settings.standard with enginePath := some ⟨"./other"⟩, output := ⟨"other.json"⟩ }
  have hplan : fileOptions.plan s none = .ok settingsPlan := by decide +kernel
  have hsame : SameSettings {["c.json"]} reportingLineOne reportingLater fileOptions winningOptions s s' allInFile
      othersInFile := {
    artifact := rfl
    table := rfl
    criterion := rfl
    loads := by decide +kernel
    loads' := by decide +kernel
    effective := by decide +kernel
    programs := ⟨rfl, rfl⟩
    engine := rfl
    files := agreeOff_settingsFile _ _
    unused := fun p hp => by
      obtain rfl := Except.ok.inj (hplan.symm.trans hp)
      exact avoids_settingsPlan }
  have hend : (match slice reportingLineOne fileOptions allInFile with
    | .ok output _ => some output
    | .error .. => none) = some ⟨["int v;\n"], []⟩ := by decide +kernel
  refine ⟨s, s', hsame, ?_⟩
  obtain ⟨⟨output, t, t', hrun, hrun', heffects⟩ | ⟨f, t, t', hrun, -⟩, -⟩ := slice_effective hsame
  · rw [hrun] at hend
    obtain rfl := Option.some.inj hend
    exact ⟨t, t', hrun, hrun', heffects⟩
  · rw [hrun] at hend
    cases hend

end Command
end SourceSlice
