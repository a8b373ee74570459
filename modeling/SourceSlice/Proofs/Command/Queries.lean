import SourceSlice.Command.Arguments
import SourceSlice.Proofs.Command.Agreement
import SourceSlice.Proofs.Command.Unnoticed
/-!
# Looking at runs

The commands that list runs and show one look at results databases.  Two runs of a list of commands, one with the looks
and one without, are alike but for what looks leave: each look keeps that (`perform_look`), and so does each run
(`perform_slice`), which does not notice it.  So nothing of the looks is seen in the end (`performAll_without_looks`).
-/
namespace SourceSlice

open Work FileSystem

variable {σ : Type} {start : FileSystem} {names : List Path}

namespace Command

variable {w : World σ}

structure Looked (start : FileSystem) (names : List Path) (files : FileSystem) (before after : World σ) : Prop where
  files : FileSystem.Observed start names files after.files
  engine : after.engine = before.engine
  ticks : after.ticks = before.ticks

theorem openExisting_looked {db : Path} {before : FileSystem} (h : FileSystem.Observed start names before w.files)
    (hseparate : start.Separate names) (hname : db ∈ names) :
    EndsIn (openExisting db) w (Looked start names before w) := by
  unfold openExisting
  refine .bind (ends_files.2 ?_)
  dsimp only
  split_ifs with hfile
  · exact .bind ⟨h, rfl, rfl⟩
  rw [Bool.not_eq_true', Bool.not_eq_false] at hfile
  have hopen := h.openAt hseparate hname hfile
  have hlooked : EndsIn (ofStoring s!"Failed to open results database at {db.text}" (Handle.openAt db)) w
      (Looked start names before w) := by
    unfold EndsIn Ends ofStoring
    cases hwork : Handle.openAt db w.files with
    | ok handle files => exact ⟨hopen.of_ok hwork, rfl, rfl⟩
    | error e files => exact ⟨hopen.of_error hwork, rfl, rfl⟩
  exact .bind (hlooked.imp (fun _ _ h => .bind (ends_files.2 (ends_pure.2 h))) fun _ _ h => h)

end Command

namespace CommandLine

def Invocation.isSlice : Invocation → Bool
  | slice _ => true
  | _ => false

def Invocation.lookedAt? : Invocation → Option Path
  | listRuns db _ => some db
  | showRun db _ _ => some db
  | _ => none

def lookedAt (invocations : List Invocation) : List Path := invocations.filterMap Invocation.lookedAt?

open Command

variable {around : Surroundings σ} {w : World σ} {i : Invocation}

theorem run_looked {before : FileSystem} (h : FileSystem.Observed start names before w.files)
    (hseparate : start.Separate names) (hslice : i.isSlice = false) (hnames : ∀ db, i.lookedAt? = some db → db ∈ names) :
    EndsIn (run around i) w (Looked start names before w) := by
  have hprint (text : String) (t : World σ) (ht : Looked start names before w t) :
      EndsIn (print text) t (Looked start names before w) := ⟨ht.files, ht.engine, ht.ticks⟩
  cases i with
  | version => exact hprint _ w ⟨h, rfl, rfl⟩
  | slice o => cases hslice
  | listRuns db json =>
    refine .bind ((openExisting_looked h hseparate (hnames db rfl)).imp ?_ fun _ _ h => h)
    intro d t ht
    refine .bind (ends_ofExcept (fun runs _ => ?_) fun _ _ => ht)
    split_ifs
    · exact hprint _ t ht
    · exact hprint _ t ht
  | showRun db id json =>
    refine .bind ((openExisting_looked h hseparate (hnames db rfl)).imp ?_ fun _ _ h => h)
    intro d t ht
    refine .bind (ends_ofExcept (fun run _ => .bind (ends_ofExcept (fun output _ => ?_) fun _ _ => ht)) fun _ _ => ht)
    dsimp only
    split_ifs
    · exact hprint _ t ht
    · exact hprint _ t ht

/-- **Where no file is, there is nothing to look at**, and nothing is made. -/
theorem run_of_missing {db : Path} (hi : i.lookedAt? = some db) (hfile : w.files.isFile db = false) :
    run around i w = .error ⟨none, .databaseMissing db⟩ w := by
  have hopen : openExisting db w = .error ⟨none, .databaseMissing db⟩ w := by
    have hfiles : (files : Command σ FileSystem) w = .ok w.files w := rfl
    unfold openExisting
    rw [bind_of_ok hfiles, hfile]
    rfl
  cases i with
  | version => cases hi
  | slice o => cases hi
  | listRuns name json => cases hi; exact bind_of_error hopen
  | showRun name id json => cases hi; exact bind_of_error hopen

end CommandLine

/-! ## Commands one after the other -/

structure Scene (σ : Type) where
  files : FileSystem
  engine : σ
  ticks : Nat

def Scene.world (s : Scene σ) : World σ := ⟨s.files, s.engine, [], s.ticks, "", []⟩

def World.scene (w : World σ) : Scene σ := ⟨w.files, w.engine, w.ticks⟩

def Scene.perform {α : Type} (s : Scene σ) (command : Command σ α) : Except Failure α × World σ :=
  match command s.world with
  | .ok a w => (.ok a, w)
  | .error f w => (.error f, w)

/-- **Two scenes that differ in their files alone**, where databases were looked at in the second. -/
structure Scene.Observed (start : FileSystem) (names : List Path) (s s' : Scene σ) : Prop where
  files : FileSystem.Observed start names s.files s'.files
  engine : s'.engine = s.engine
  ticks : s'.ticks = s.ticks

/-- **What is seen of a run.** -/
structure Seen where
  result : Except Failure BatchOutput
  calls : List (Path × List String)
  stdout : String
  warnings : List String

namespace CommandLine

variable {around : Surroundings σ}

def seen (around : Surroundings σ) (o : SliceOptions) (s : Scene σ) : Seen :=
  let done := s.perform (Command.slice around o)
  ⟨done.1, done.2.calls, done.2.stdout, done.2.warnings⟩

/-- **Commands one after the other**: what is seen of those that slice, and the scene after all of them. -/
def performAll (around : Surroundings σ) : List Invocation → Scene σ → List Seen × Scene σ
  | [], s => ([], s)
  | .slice o :: rest, s =>
    let (others, last) := performAll around rest (s.perform (Command.slice around o)).2.scene
    (seen around o s :: others, last)
  | i :: rest, s => performAll around rest (s.perform (run around i)).2.scene

/-- Whether each run is as it should be in the scene that the runs before it leave. -/
def EachSlice (around : Surroundings σ) (good : SliceOptions → Scene σ → Prop) : List Invocation → Scene σ → Prop
  | [], _ => True
  | .slice o :: rest, s => good o s ∧ EachSlice around good rest (s.perform (Command.slice around o)).2.scene
  | _ :: rest, s => EachSlice around good rest s

/-- **Databases that may be looked at**: no two share a file, and of each all is known. -/
structure Watchable (start : FileSystem) (names : List Path) : Prop where
  rooted : start.Rooted
  separate : start.Separate names
  known : ∀ name ∈ names, ∀ l ∈ start.homeOf? name, start.Known l

/-- **A run that uses databases for nothing but to record itself**, while they are looked at.  Of the one in which it is
recorded all is known. -/
structure OnlyRecords (around : Surroundings σ) (start : FileSystem) (names : List Path) (o : SliceOptions)
    (s : Scene σ) : Prop where
  avoids : o.Avoids (watched start names) around s.files s.engine
  records : o.MayRecord around start names s.files
  known : ∀ p, o.planned? s.files around.engineVariable = some p → ∀ l ∈ p.home? s.files, s.files.Known l

theorem perform_slice {s s' : Scene σ} {o : SliceOptions} (h : Scene.Observed start names s s')
    (hseparate : start.Separate names) (hslice : OnlyRecords around start names o s) :
    (s'.perform (Command.slice around o)).1 = (s.perform (Command.slice around o)).1 ∧
      World.Observed start names (s.perform (Command.slice around o)).2 (s'.perform (Command.slice around o)).2 := by
  have hworld : World.Observed start names s.world s'.world := by
    refine ⟨h.files, ?_⟩
    rw [Scene.world, Scene.world, h.engine, h.ticks]
  unfold Scene.perform
  rcases (Command.slice_observed hworld hseparate hslice.avoids hslice.records).cases with
    ⟨output, t, _, t', hw, hw', rfl, ht⟩ | ⟨f, t, t', hw, hw', ht⟩
  · rw [hw, hw']
    exact ⟨rfl, ht⟩
  · rw [hw, hw']
    exact ⟨rfl, ht⟩

theorem perform_look {s s' : Scene σ} {i : Invocation} (h : Scene.Observed start names s s')
    (hseparate : start.Separate names) (hslice : i.isSlice = false) (hnames : ∀ db, i.lookedAt? = some db → db ∈ names) :
    Scene.Observed start names s (s'.perform (run around i)).2.scene := by
  have hlooked := @run_looked σ start names around s'.world i s.files h.files hseparate hslice hnames
  unfold Scene.perform
  cases hw : run around i s'.world with
  | ok _ t =>
    have ht := hlooked.of_ok hw
    exact ⟨ht.files, ht.engine.trans h.engine, ht.ticks.trans h.ticks⟩
  | error f t =>
    have ht := hlooked.of_error hw
    exact ⟨ht.files, ht.engine.trans h.engine, ht.ticks.trans h.ticks⟩

/-- **Two runs of a list of commands, one with the looks and one without**, stay alike but for what looks leave. -/
theorem performAll_observed (hseparate : start.Separate names) : ∀ {invocations : List Invocation} {s s' : Scene σ},
    Scene.Observed start names s s' → (∀ i ∈ invocations, ∀ db, i.lookedAt? = some db → db ∈ names) →
    EachSlice around (OnlyRecords around start names) invocations s →
    (performAll around invocations s').1 = (performAll around (invocations.filter Invocation.isSlice) s).1 ∧
      Scene.Observed start names (performAll around (invocations.filter Invocation.isSlice) s).2
        (performAll around invocations s').2
  | [], _, _, h, _, _ => ⟨rfl, h⟩
  | i :: rest, s, s', h, hnames, heach => by
    have hrest : ∀ j ∈ rest, ∀ db, j.lookedAt? = some db → db ∈ names := fun j hj =>
      hnames j (List.mem_cons_of_mem _ hj)
    have hlook (hslice : i.isSlice = false) : Scene.Observed start names s (s'.perform (run around i)).2.scene :=
      perform_look h hseparate hslice (hnames i List.mem_cons_self)
    cases i with
    | slice o =>
      obtain ⟨hslice, heach⟩ := heach
      obtain ⟨hresult, hworld⟩ := perform_slice h hseparate hslice
      have hscene : Scene.Observed start names (s.perform (Command.slice around o)).2.scene
          (s'.perform (Command.slice around o)).2.scene := by
        refine ⟨hworld.files, ?_, ?_⟩
        · rw [hworld.others]; rfl
        · rw [hworld.others]; rfl
      obtain ⟨hseen, hlast⟩ := performAll_observed hseparate hscene hrest heach
      have hfirst : seen around o s' = seen around o s := by
        unfold seen
        dsimp only
        rw [hresult, hworld.others]
      exact ⟨List.cons_eq_cons.2 ⟨hfirst, hseen⟩, hlast⟩
    | _ =>
      have hall := performAll_observed hseparate (hlook rfl) hrest heach
      exact hall

def withEmptyFile : Scene Unit :=
  (Command.oneSource [(["runs.db"], .file (.bytes ByteArray.empty) false)]).scene

def lookingAround (db : Path) : List Invocation :=
  [.listRuns ⟨"runs.db"⟩ false, .slice { Command.recordedOptions with db := some db },
    .showRun ⟨"runs.db"⟩ 1 true]

theorem watchable_lookingAround (db : Path) : Watchable withEmptyFile.files (lookedAt (lookingAround db)) := by
  have hhome : ∀ name ∈ [(⟨"runs.db"⟩ : Path), ⟨"runs.db"⟩],
      withEmptyFile.files.homeOf? name = some ["runs.db"] := by decide +kernel
  refine ⟨by decide +kernel, ?_, ?_⟩
  · rintro l ⟨-, name, hname, hl⟩ m ⟨-, other, hother, hm⟩ - - -
    rw [hhome name hname] at hl
    rw [hhome other hother] at hm
    exact Option.some.inj (hm.symm.trans hl)
  · intro name hname l hl
    obtain rfl : ["runs.db"] = l := Option.some.inj ((hhome name hname).symm.trans hl)
    decide +kernel

theorem avoids_recordedOptions (db : Path) : ({ Command.recordedOptions with db := some db } : SliceOptions).Avoids
    (watched withEmptyFile.files (lookedAt (lookingAround db))) Command.reportingLineOne
    withEmptyFile.files withEmptyFile.engine where
  config := nofun
  plan p hp := by
    have hplan : ({ Command.recordedOptions with db := some db } : SliceOptions).planned? withEmptyFile.files none
        = some { Command.recordedPlan with db := some db } := rfl
    obtain rfl := Option.some.inj (hplan.symm.trans hp)
    have havoids : ({ Command.recordedPlan with db := none } : Plan).Avoids
        (watched withEmptyFile.files [⟨"runs.db"⟩, ⟨"runs.db"⟩]) Command.reportingLineOne withEmptyFile.files () := {
      artifact := by decide +kernel
      programs := by decide +kernel
      table := nofun
      rows := by decide +kernel
      sources := by decide +kernel
      output := by decide +kernel
      database := nofun }
    exact havoids

theorem mayRecord_recordedOptions : Command.recordedOptions.MayRecord Command.reportingLineOne withEmptyFile.files
    [⟨"runs.db"⟩, ⟨"runs.db"⟩] withEmptyFile.files := by
  intro p db hp hdb
  have hplan : Command.recordedOptions.planned? withEmptyFile.files none = some Command.recordedPlan := rfl
  obtain rfl := Option.some.inj (hplan.symm.trans hp)
  obtain rfl := Option.some.inj hdb
  exact .inr ⟨⟨"runs.db"⟩, {}, {
    address := by decide +kernel
    home := ⟨by decide +kernel, ⟨"runs.db"⟩, List.mem_cons_self, by decide +kernel⟩
    path := by decide +kernel
    directory := by decide +kernel
    pattern := nofun
    writable := rfl
    made := .inl rfl }⟩

theorem known_recordedOptions (p : Plan)
    (hp : Command.recordedOptions.planned? withEmptyFile.files Command.reportingLineOne.engineVariable = some p) :
    ∀ l ∈ p.home? withEmptyFile.files, withEmptyFile.files.Known l := by
  have hplan : Command.recordedOptions.planned? withEmptyFile.files none = some Command.recordedPlan := rfl
  obtain rfl := Option.some.inj (hplan.symm.trans hp)
  intro l hl
  obtain rfl : ["runs.db"] = l := Option.some.inj hl
  decide +kernel

/-- An output file in the place of a journal is cleared away by a look. -/
example :
    let o : SliceOptions := { Command.recordedOptions with output := some ⟨"runs.db-journal"⟩, db := none }
    let isKept (done : List Seen × Scene Unit) : Bool := done.2.files.isFile ⟨"runs.db-journal"⟩
    isKept (performAll Command.reportingLineOne [.slice o, .listRuns ⟨"runs.db"⟩ false] withEmptyFile) = false ∧
      isKept (performAll Command.reportingLineOne [.slice o] withEmptyFile) = true := by decide +kernel

/-- A look under an address makes a file where another one has the address for its name, and a run finds it there. -/
example :
    let s := (Command.oneSource [(["file:runs.db?mode=rwc"], .file (.bytes ByteArray.empty) false)]).scene
    let o : SliceOptions := { Command.recordedOptions with db := some ⟨"file:runs.db?mode=rw"⟩ }
    let results (done : List Seen × Scene Unit) : List Bool := done.1.map fun seen => seen.result.isOk
    results (performAll Command.reportingLineOne [.listRuns ⟨"file:runs.db?mode=rwc"⟩ false, .slice o] s) = [true] ∧
      results (performAll Command.reportingLineOne [.slice o] s) = [false] := by decide +kernel

end CommandLine
end SourceSlice
