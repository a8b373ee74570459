import SourceSlice.Proofs.Batch.Demand
/-!
# Demands on a memory

What a demand comes to when there is no engine: a `Memory` holds answers, and the demand is worked on up to the first
question to which it holds none.  A slicer does the same with the answers it keeps (`Slicer.Heeds`).  A demand that
comes to its end on some of them is served so.  One that comes to a question calls the engine for it, and goes on as if
the answer had been kept before.

`Heeds` is closed under `>>=`, so it goes from single questions up to demands along the definitions of both sides.
-/
namespace SourceSlice

open Criterion (Slot)

variable {σ α β : Type}

abbrev Memory := Slot → Option Selection

/-- What comes of work on a memory: the first question to which it holds no answer, or a result. -/
abbrev Recalled (α : Type) := ExceptT SliceError (Except Criterion) α

namespace Recalled

def unanswered (c : Criterion) : Recalled α := ExceptT.mk (.error c)

def ofExcept (x : Except SliceError α) : Recalled α := ExceptT.mk (.ok x)

theorem run_bind (x : Recalled α) (f : α → Recalled β) : (x >>= f).run = match x.run with
    | .error c => .error c
    | .ok (.error e) => .ok (.error e)
    | .ok (.ok a) => (f a).run := by
  change ExceptT.bind x f = _
  cases h : (x : Except Criterion (Except SliceError α)) with
  | error c => rfl
  | ok r => cases r <;> rfl

end Recalled

namespace Memory

def ask (memory : Memory) (c : Criterion) (d : Direction) : Recalled Selection :=
  match memory (c.towards d).slot with
  | some a => pure a
  | none => .unanswered (c.towards d)

variable (memory : Memory) (mode : SliceMode) (files : FileSystem)

def selection (c : Criterion) : Recalled Selection :=
  match mode with
  | .backward => memory.ask c .backward
  | .forward => memory.ask c .forward
  | .bidirectional => do
    let backward ← memory.ask c .backward
    let forward ← memory.ask c .forward
    return backward.union forward

def sliceText (c : Criterion) : Recalled String := do
  let s ← memory.selection mode c
  .ofExcept (s.excerpt files)

def collect : List Row → Recalled (List SliceResult)
  | [] => return []
  | row :: rest => match row.criterion? files with
    | none => collect rest
    | some c => do
      let text ← memory.sliceText mode files c
      return ⟨text, row.label⟩ :: (← collect rest)

def runRows (rows : List Row) : Recalled BatchOutput := do
  let results ← memory.collect mode files rows
  .ofExcept (Slicer.checkLabels (.ofResults results))

def runCriterion (c : Criterion) : Recalled BatchOutput := do
  let text ← memory.sliceText mode files c
  return (∅ : BatchOutput).push ⟨text, none⟩

def run : BatchInput → Recalled BatchOutput
  | .table path => do
    let rows ← .ofExcept (Table.read files path)
    memory.runRows mode files rows
  | .rows rows => memory.runRows mode files rows
  | .adHoc criterion entryPoint =>
    match Criterion.ofKey criterion entryPoint with
    | .error error => .ofExcept (.error (.invalidInvocation (.criterion error)))
    | .ok c => memory.runCriterion mode files c

def serve : Demand → Recalled Reply
  | .run input => do return .output (← memory.run mode files input)
  | .rows rows => do return .output (← memory.runRows mode files rows)
  | .criterion c => do return .output (← memory.runCriterion mode files c)
  | .selection c => do return .selection (← memory.selection mode c)
  | .text c => do return .text (← memory.sliceText mode files c)

end Memory

def Session.Keeps (s : Session σ) (memory : Memory) : Prop := ∀ slot a, memory slot = some a → s.kept? slot = some a

namespace Slicer

variable {slicer : Slicer σ}

/-- **Work calls for a question.**  With the answer kept it is the same work, and without one it fails. -/
def CallsFor (slicer : Slicer σ) (work : Slicing σ α) (c : Criterion) (s : Session σ) : Prop :=
  match (slicer.callFor c s).outcome with
  | .ok a => work s = work ((slicer.called c s).keeping c.slot a)
  | .error e => work s = .error e (slicer.called c s)

/-- **Work does as a memory says.**  What comes to its end on answers that are kept ends so and does no more; what comes
to a question has none for it, and calls. -/
structure Heeds (slicer : Slicer σ) (work : Slicing σ α) (recalled : Memory → Recalled α) : Prop where
  served : ∀ s memory r, s.Keeps memory → (recalled memory).run = .ok r → work s = Slicing.ofExcept r s
  called : ∀ s c, (recalled s.kept?).run = .error c → s.kept? c.slot = none ∧ slicer.CallsFor work c s

theorem keeps_called_keeping (slicer : Slicer σ) (c : Criterion) (s : Session σ) (a : Selection) :
    ((slicer.called c s).keeping c.slot a).Keeps s.kept? := by
  intro slot kept hkept
  rw [Session.kept?_keeping, kept?_called, hkept]
  rfl

theorem CallsFor.bind {work : Slicing σ α} {c : Criterion} {s : Session σ} (h : slicer.CallsFor work c s)
    (next : α → Slicing σ β) : slicer.CallsFor (work >>= next) c s := by
  unfold CallsFor at h ⊢
  cases ho : (slicer.callFor c s).outcome with
  | ok a => rw [ho] at h; exact Work.bind_eq_of_eq h
  | error e => rw [ho] at h; exact Work.bind_of_error h

theorem CallsFor.of_bind {work : Slicing σ α} {next : α → Slicing σ β} {c : Criterion} {s : Session σ} {a : α}
    (h : slicer.CallsFor (next a) c s) (hdone : work s = .ok a s) (hagain : ∀ answer,
      work ((slicer.called c s).keeping c.slot answer) = .ok a ((slicer.called c s).keeping c.slot answer)) :
    slicer.CallsFor (work >>= next) c s := by
  unfold CallsFor at h ⊢
  rw [Work.bind_of_ok hdone]
  cases ho : (slicer.callFor c s).outcome with
  | ok answer => rw [ho] at h; exact h.trans (Work.bind_of_ok (hagain answer)).symm
  | error e => rw [ho] at h; exact h

namespace Heeds

variable {work : Slicing σ α} {recalled : Memory → Recalled α}

theorem ofExcept (x : Except SliceError α) : slicer.Heeds (Slicing.ofExcept x) fun _ => .ofExcept x where
  served _ _ _ _ h := by rw [Except.ok.inj h]
  called _ _ h := nomatch h

theorem pure (a : α) : slicer.Heeds (Pure.pure a : Slicing σ α) fun _ => Pure.pure a := ofExcept (.ok a)

theorem bind {next : α → Slicing σ β} {recalledNext : α → Memory → Recalled β} (hwork : slicer.Heeds work recalled)
    (hnext : ∀ a, slicer.Heeds (next a) (recalledNext a)) :
    slicer.Heeds (work >>= next) fun memory => recalled memory >>= fun a => recalledNext a memory where
  served s memory r hkeeps h := by
    rw [Recalled.run_bind] at h
    cases hfirst : (recalled memory).run with
    | error c => rw [hfirst] at h; cases h
    | ok first =>
      have hdone := hwork.served s memory first hkeeps hfirst
      rw [hfirst] at h
      cases first with
      | error e =>
        cases h
        exact Work.bind_of_error hdone
      | ok a => exact (Work.bind_of_ok hdone).trans ((hnext a).served s memory r hkeeps h)
  called s c h := by
    rw [Recalled.run_bind] at h
    cases hfirst : (recalled s.kept?).run with
    | error b =>
      rw [hfirst] at h
      cases h
      obtain ⟨hnone, hcalls⟩ := hwork.called s c hfirst
      exact ⟨hnone, hcalls.bind next⟩
    | ok first =>
      have hdone := hwork.served s s.kept? first (fun _ _ => id) hfirst
      rw [hfirst] at h
      cases first with
      | error e => cases h
      | ok a =>
        -- the first part leaves the session as it was, before and after the call, and the rest comes to the question
        obtain ⟨hnone, hcalls⟩ := (hnext a).called s c h
        exact ⟨hnone, hcalls.of_bind hdone fun answer =>
          hwork.served _ s.kept? _ (slicer.keeps_called_keeping c s answer) hfirst⟩

end Heeds

theorem heeds_ask (c : Criterion) (d : Direction) : slicer.Heeds (slicer.ask c d) fun memory => memory.ask c d where
  served s memory r hkeeps h := by
    unfold Memory.ask at h
    cases ha : memory (c.towards d).slot with
    | none => rw [ha] at h; cases h
    | some a =>
      rw [ha] at h
      obtain rfl : .ok a = r := Except.ok.inj h
      exact ask_of_kept (hkeeps _ a ha)
  called s b h := by
    unfold Memory.ask at h
    cases ha : s.kept? (c.towards d).slot with
    | some a => rw [ha] at h; cases h
    | none =>
      rw [ha] at h
      obtain rfl : c.towards d = b := Except.error.inj h
      refine ⟨ha, ?_⟩
      unfold CallsFor
      cases ho : (slicer.callFor (c.towards d) s).outcome with
      | error e => exact ask_of_outcome_error ha ho
      | ok a =>
        have hkept : ((slicer.called (c.towards d) s).keeping (c.towards d).slot a).kept? (c.towards d).slot = some a := by
          rw [Session.kept?_keeping, kept?_called, ha, if_pos rfl]
          rfl
        exact (ask_of_outcome_ok ha ho).trans (ask_of_kept hkept).symm

theorem heeds_selection (c : Criterion) :
    slicer.Heeds (slicer.selection c) fun memory => memory.selection slicer.mode c := by
  unfold selection Memory.selection
  cases slicer.mode with
  | backward => exact heeds_ask c .backward
  | forward => exact heeds_ask c .forward
  | bidirectional => exact (heeds_ask c .backward).bind fun _ => (heeds_ask c .forward).bind fun _ => .pure _

theorem heeds_sliceText (files : FileSystem) (c : Criterion) :
    slicer.Heeds (slicer.sliceText files c) fun memory => memory.sliceText slicer.mode files c :=
  (heeds_selection c).bind fun _ => .ofExcept _

theorem heeds_collect (files : FileSystem) : ∀ rows : List Row,
    slicer.Heeds (slicer.collect files rows) fun memory => memory.collect slicer.mode files rows
  | [] => .pure _
  | row :: rest => by
    have ih := heeds_collect files rest
    unfold collect Memory.collect
    cases row.criterion? files with
    | none => exact ih
    | some c => exact (heeds_sliceText files c).bind fun _ => ih.bind fun _ => .pure _

theorem heeds_runRows (files : FileSystem) (rows : List Row) :
    slicer.Heeds (slicer.runRows files rows) fun memory => memory.runRows slicer.mode files rows :=
  (heeds_collect files rows).bind fun _ => .ofExcept _

theorem heeds_runCriterion (files : FileSystem) (c : Criterion) :
    slicer.Heeds (slicer.runCriterion files c) fun memory => memory.runCriterion slicer.mode files c :=
  (heeds_sliceText files c).bind fun _ => .pure _

theorem heeds_run (files : FileSystem) (input : BatchInput) :
    slicer.Heeds (slicer.run files input) fun memory => memory.run slicer.mode files input := by
  cases input with
  | table path => exact Heeds.bind (.ofExcept _) fun rows => heeds_runRows files rows
  | rows rows => exact heeds_runRows files rows
  | adHoc criterion entryPoint =>
    simp only [run, Memory.run]
    cases Criterion.ofKey criterion entryPoint with
    | error error => exact .ofExcept (.error _)
    | ok c => exact heeds_runCriterion files c

/-- **Every demand is served as the answers kept say**, as far as these go. -/
theorem heeds_serve (files : FileSystem) (demand : Demand) :
    slicer.Heeds (slicer.serve files demand) fun memory => memory.serve slicer.mode files demand := by
  cases demand with
  | run input => exact (heeds_run files input).bind fun _ => .pure _
  | rows rows => exact (heeds_runRows files rows).bind fun _ => .pure _
  | criterion c => exact (heeds_runCriterion files c).bind fun _ => .pure _
  | selection c => exact (heeds_selection c).bind fun _ => .pure _
  | text c => exact (heeds_sliceText files c).bind fun _ => .pure _

end Slicer
end SourceSlice
