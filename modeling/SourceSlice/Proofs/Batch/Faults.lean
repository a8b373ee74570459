import Mathlib.Tactic.SplitIfs
import SourceSlice.Batch.Slicer
import SourceSlice.Proofs.Work
/-!
# How a batch fails

Faults of the input are found before the engine is asked: a run whose input is not `Readable` fails for that and leaves
the session as it was, and once the input is read no later step fails so (`run_ends`).  What slicing a criterion can
still fail for is `Slicer.Fails`.  A run that ends well has no labels or one for each slice.
-/
namespace SourceSlice

open Work

variable {σ α β : Type}

/-- Whether an error is about what a run was given: its table, its criterion, or which of them there is. -/
def SliceError.isOfInput : SliceError → Bool
  | invalidInvocation _ => true
  | tableUnreadable .. => true
  | tableMalformed .. => true
  | _ => false

/-- **Whether an input can be read**: its whole table, or its composite text. -/
def BatchInput.Readable (files : FileSystem) : BatchInput → Prop
  | .table path => ∃ rows, Table.read files path = .ok rows
  | .rows _ => True
  | .adHoc criterion entryPoint => ∃ c, Criterion.ofKey criterion entryPoint = .ok c

def Engine.NotOfInput (engine : Engine σ) : Prop := ∀ r s e, (engine r s).1 = .error e → e.isOfInput = false

/-- The failures that are an engine's own: nothing can be started, or what was started fails. -/
inductive SliceError.OfEngine : SliceError → Prop
  | notFound (path : Path) (fault : FileFault) : OfEngine (.engineNotFound path fault)
  | failed (key : String) (status : ExitStatus) (stderr : String) : OfEngine (.engineFailed key status stderr)

def Engine.OwnFailures (engine : Engine σ) : Prop := ∀ r s e, (engine r s).1 = .error e → e.OfEngine

theorem Engine.ownFailures_spawned (files : FileSystem) (searchPath : Option String) (path : Path)
    (program : Program σ) : (Engine.spawned files searchPath path program).OwnFailures := by
  intro r s e h
  rw [spawned] at h
  cases hlaunch : files.launch searchPath path r.args with
  | error fault => rw [hlaunch] at h; cases h; exact .notFound path fault
  | ok _ =>
    rw [hlaunch] at h
    change (program r.args s).1.answer r = .error e at h
    unfold Outcome.answer at h
    split_ifs at h
    cases h
    exact .failed _ _ _

theorem Engine.OwnFailures.notOfInput {engine : Engine σ} (h : engine.OwnFailures) : engine.NotOfInput := by
  intro r s e he
  cases h r s e he <;> rfl

theorem Engine.notOfInput_spawned (files : FileSystem) (searchPath : Option String) (path : Path)
    (program : Program σ) : (Engine.spawned files searchPath path program).NotOfInput :=
  (ownFailures_spawned files searchPath path program).notOfInput

namespace Slicing

def NotOfInput (work : Slicing σ α) : Prop := ∀ s, Ends work s (fun _ _ => True) (fun e _ => e.isOfInput = false)

def FailsAs (faults : SliceError → Prop) (work : Slicing σ α) : Prop :=
  ∀ s, Ends work s (fun _ _ => True) fun e _ => faults e

variable {faults : SliceError → Prop}

theorem FailsAs.bind {work : Slicing σ α} {next : α → Slicing σ β} (hwork : work.FailsAs faults)
    (hnext : ∀ a, (next a).FailsAs faults) : FailsAs faults (work >>= next) := fun s =>
  .bind ((hwork s).imp (fun a t _ => hnext a t) fun _ _ h => h)

theorem failsAs_pure (a : α) : (pure a : Slicing σ α).FailsAs faults := fun _ => trivial

theorem failsAs_ofExcept {x : Except SliceError α} (h : ∀ e, x = .error e → faults e) :
    (ofExcept x : Slicing σ α).FailsAs faults := by
  intro s
  cases x with
  | ok a => trivial
  | error e => exact h e rfl

end Slicing

namespace Slicer

/-- **What slicing a criterion can fail for**: the engine fails, its report has a fault, or a file that it names cannot
be read. -/
inductive Fails (slicer : Slicer σ) : SliceError → Prop
  | engine {r : Request} {s : σ} {e : SliceError} : (slicer.engine r s).1 = .error e → Fails slicer e
  | report (fault : Report.Fault) : Fails slicer (.malformedReport fault)
  | source (p : Path) (fault : FileFault) : Fails slicer (.sourceUnavailable p fault)

variable {slicer : Slicer σ} {e : SliceError}

theorem Fails.isOfInput (h : slicer.Fails e) (hengine : slicer.engine.NotOfInput) : e.isOfInput = false := by
  cases h with
  | engine hr => exact hengine _ _ _ hr
  | report => rfl
  | source => rfl

theorem fails_of_selectionOf {report : String} (h : selectionOf report = .error e) : slicer.Fails e := by
  unfold selectionOf at h
  cases hparse : Report.parse report with
  | ok s => rw [hparse] at h; cases h
  | error fault => rw [hparse] at h; cases h; exact .report fault

theorem fails_of_excerptEntries {files : FileSystem} : ∀ {entries : List Entry},
    excerptEntries files entries = .error e → slicer.Fails e
  | [], h => nomatch h
  | entry :: rest, h => by
    rw [excerptEntries] at h
    cases hentry : entry.excerpt files with
    | error fault =>
      rw [hentry] at h
      cases h
      unfold Entry.excerpt FileSystem.readSource at hentry
      grind [Fails]
    | ok text =>
      rw [hentry] at h
      cases hrest : excerptEntries files rest with
      | error fault =>
        rw [hrest] at h
        cases h
        exact fails_of_excerptEntries hrest
      | ok texts => rw [hrest] at h; cases h

theorem fails_of_excerpt {files : FileSystem} {s : Selection} (h : s.excerpt files = .error e) : slicer.Fails e := by
  unfold Selection.excerpt at h
  cases hentries : excerptEntries files s.entries with
  | ok text => rw [hentries] at h; cases h
  | error fault =>
    rw [hentries] at h
    cases h
    exact fails_of_excerptEntries hentries

end Slicer

theorem isOfInput_of_read {files : FileSystem} {path : Path} {e : SliceError}
    (h : Table.read files path = .error e) : e.isOfInput = true := by
  unfold Table.read at h
  split at h
  next => cases h; rfl
  next => cases h; rfl
  next content _ _ =>
    cases hrows : Table.rows content.toBytes with
    | ok rows => rw [hrows] at h; cases h
    | error fault => rw [hrows] at h; cases h; rfl

namespace Slicer

open Slicing

theorem failsAs_call (slicer : Slicer σ) (r : Request) : (slicer.call r).FailsAs slicer.Fails := by
  intro s
  unfold Ends call
  cases hanswer : (slicer.engine r s.engine).1 with
  | ok text => simp only [hanswer]
  | error e => simp only [hanswer]; exact .engine hanswer

theorem failsAs_ask (slicer : Slicer σ) (c : Criterion) (d : Direction) : (slicer.ask c d).FailsAs slicer.Fails := by
  have hinvoke : (slicer.invoke (c.towards d)).FailsAs slicer.Fails :=
    (failsAs_call slicer _).bind fun _ => failsAs_ofExcept fun _ => fails_of_selectionOf
  intro s
  refine .bind (ends_get.2 ?_)
  split
  next => trivial
  next => exact (hinvoke.bind fun a => .bind (fun _ => ends_modify.2 trivial) fun _ => failsAs_pure a) s

theorem failsAs_selection (slicer : Slicer σ) (c : Criterion) : (slicer.selection c).FailsAs slicer.Fails := by
  unfold selection
  cases slicer.mode with
  | backward => exact failsAs_ask slicer c _
  | forward => exact failsAs_ask slicer c _
  | bidirectional =>
    exact (failsAs_ask slicer c _).bind fun _ => (failsAs_ask slicer c _).bind fun _ => failsAs_pure _

theorem failsAs_sliceText (slicer : Slicer σ) (files : FileSystem) (c : Criterion) :
    (slicer.sliceText files c).FailsAs slicer.Fails :=
  (failsAs_selection slicer c).bind fun _ => failsAs_ofExcept fun _ => fails_of_excerpt

theorem failsAs_collect (slicer : Slicer σ) (files : FileSystem) : ∀ rows : List Row,
    (slicer.collect files rows).FailsAs slicer.Fails
  | [] => failsAs_pure _
  | row :: rest => by
    rw [collect]
    cases row.criterion? files with
    | none => exact failsAs_collect slicer files rest
    | some c =>
      exact (failsAs_sliceText slicer files c).bind fun _ =>
        (failsAs_collect slicer files rest).bind fun _ => failsAs_pure _

variable {slicer : Slicer σ} (hengine : slicer.engine.NotOfInput)
include hengine

theorem notOfInput_sliceText (files : FileSystem) (c : Criterion) : (slicer.sliceText files c).NotOfInput := fun s =>
  (failsAs_sliceText slicer files c s).imp (fun _ _ h => h) fun _ _ h => h.isOfInput hengine

theorem notOfInput_collect (files : FileSystem) (rows : List Row) : (slicer.collect files rows).NotOfInput := fun s =>
  (failsAs_collect slicer files rows s).imp (fun _ _ h => h) fun _ _ h => h.isOfInput hengine

theorem runRows_ends (files : FileSystem) (rows : List Row) (s : Session σ) :
    Ends (slicer.runRows files rows) s (fun o _ => o.labelsConsistent) (fun e _ => e.isOfInput = false) := by
  refine .bind ((notOfInput_collect hengine files rows s).imp (fun results t _ => ?_) fun _ _ h => h)
  unfold checkLabels
  split_ifs with hlabels
  · exact hlabels
  · exact rfl

theorem runCriterion_ends (files : FileSystem) (c : Criterion) (s : Session σ) :
    Ends (slicer.runCriterion files c) s (fun o _ => o.labelsConsistent) (fun e _ => e.isOfInput = false) :=
  .bind ((notOfInput_sliceText hengine files c s).imp (fun _ _ _ => rfl) fun _ _ h => h)

/-- **Faults of the input are found before the engine is asked**, and the labels of a result match its slices. -/
theorem run_ends (files : FileSystem) (input : BatchInput) (s : Session σ) :
    Ends (slicer.run files input) s (fun o _ => input.Readable files ∧ o.labelsConsistent)
      (fun e t => if e.isOfInput then ¬ input.Readable files ∧ t = s else input.Readable files) := by
  -- Once the table is read or the criterion is taken apart, no failure is about the input.
  have hlater {work : Slicing σ BatchOutput} (hread : input.Readable files)
      (h : Ends work s (fun o _ => o.labelsConsistent) (fun e _ => e.isOfInput = false)) :
      Ends work s (fun o _ => input.Readable files ∧ o.labelsConsistent)
        (fun e t => if e.isOfInput then ¬ input.Readable files ∧ t = s else input.Readable files) :=
    h.imp (fun _ _ h => ⟨hread, h⟩) fun _ _ h => by rw [h]; exact hread
  cases input with
  | table path =>
    rw [run]
    cases hrows : Table.read files path with
    | error e =>
      have hinput : e.isOfInput = true := isOfInput_of_read hrows
      refine (if_pos hinput).mpr ⟨?_, rfl⟩
      rintro ⟨rows, h⟩
      rw [hrows] at h
      cases h
    | ok rows => exact hlater ⟨rows, hrows⟩ (runRows_ends hengine files rows s)
  | rows rows => exact hlater trivial (runRows_ends hengine files rows s)
  | adHoc criterion entryPoint =>
    rw [run]
    cases hkey : Criterion.ofKey criterion entryPoint with
    | error e =>
      refine ⟨?_, rfl⟩
      rintro ⟨c, h⟩
      rw [hkey] at h
      cases h
    | ok c => exact hlater ⟨c, hkey⟩ (runCriterion_ends hengine files c s)

end Slicer
end SourceSlice
