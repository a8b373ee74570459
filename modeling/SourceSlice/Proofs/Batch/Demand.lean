import SourceSlice.Proofs.Batch.Session
/-!
# Demands

The five things that can be demanded of a slicer, and a series of them on one slicer, each over the files there are at
its time.  `leads_serveAll` says that serving them all is a run of questions about the criteria they name.
-/
namespace SourceSlice

variable {σ : Type}

inductive Demand where
  | run (input : BatchInput)
  | rows (rows : List Row)
  | criterion (c : Criterion)
  | selection (c : Criterion)
  | text (c : Criterion)

inductive Reply where
  | output (o : BatchOutput)
  | selection (s : Selection)
  | text (text : String)

open Slicer (criteriaOfRows)

def BatchInput.criteria (files : FileSystem) : BatchInput → List Criterion
  | .table path => match Table.read files path with
    | .ok rs => criteriaOfRows files rs
    | .error _ => []
  | .rows rs => criteriaOfRows files rs
  | .adHoc key entryPoint => match Criterion.ofKey key entryPoint with
    | .ok c => [c]
    | .error _ => []

def Demand.criteria (files : FileSystem) : Demand → List Criterion
  | .run input => input.criteria files
  | .rows rs => criteriaOfRows files rs
  | .criterion c => [c]
  | .selection c => [c]
  | .text c => [c]

namespace Slicer

variable {slicer : Slicer σ} {among : Set Criterion}

def serve (slicer : Slicer σ) (files : FileSystem) : Demand → Slicing σ Reply
  | .run input => do return .output (← slicer.run files input)
  | .rows rows => do return .output (← slicer.runRows files rows)
  | .criterion c => do return .output (← slicer.runCriterion files c)
  | .selection c => do return .selection (← slicer.selection c)
  | .text c => do return .text (← slicer.sliceText files c)

/-- **Serves demands in order**, each over its own files: the replies, and the session after the last.  A demand that
fails does not end the series. -/
def serveAll (slicer : Slicer σ) : List (FileSystem × Demand) → Session σ → List (Except SliceError Reply) × Session σ
  | [], s => ([], s)
  | (files, demand) :: rest, s =>
    let (replies, t) := slicer.serveAll rest ((slicer.serve files demand).leaves s)
    ((slicer.serve files demand).gives s :: replies, t)

theorem serveAll_cons (slicer : Slicer σ) (files : FileSystem) (demand : Demand) (rest : List (FileSystem × Demand))
    (s : Session σ) :
    slicer.serveAll ((files, demand) :: rest) s
      = ((slicer.serve files demand).gives s :: (slicer.serveAll rest ((slicer.serve files demand).leaves s)).1,
        (slicer.serveAll rest ((slicer.serve files demand).leaves s)).2) := rfl

theorem asksOnly_run (files : FileSystem) (input : BatchInput) (h : ∀ c ∈ input.criteria files, c ∈ among) :
    slicer.AsksOnly among (slicer.run files input) := by
  cases input with
  | table path =>
    rw [BatchInput.criteria] at h
    rw [run]
    cases ht : Table.read files path with
    | ok rows =>
      rw [ht] at h
      rw [Slicing.ofExcept_ok_bind]
      exact asksOnly_runRows files h
    | error e =>
      rw [Slicing.ofExcept_error_bind]
      exact asksOnly_ofExcept _ _ _
  | rows rows => exact asksOnly_runRows files h
  | adHoc criterion entryPoint =>
    rw [BatchInput.criteria] at h
    rw [run]
    cases hk : Criterion.ofKey criterion entryPoint with
    | ok c =>
      rw [hk] at h
      exact asksOnly_runCriterion files (h c List.mem_cons_self)
    | error e => exact asksOnly_ofExcept slicer among (.error (.invalidInvocation (.criterion e)))

theorem asksOnly_serve (files : FileSystem) (demand : Demand) (h : ∀ c ∈ demand.criteria files, c ∈ among) :
    slicer.AsksOnly among (slicer.serve files demand) := by
  cases demand with
  | run input => exact (asksOnly_run files input h).bind fun _ => asksOnly_pure _ _ _
  | rows rows => exact (asksOnly_runRows files h).bind fun _ => asksOnly_pure _ _ _
  | criterion c =>
    have hc : c ∈ among := h c (List.mem_singleton.2 rfl)
    exact (asksOnly_runCriterion files hc).bind fun _ => asksOnly_pure _ _ _
  | selection c =>
    have hc : c ∈ among := h c (List.mem_singleton.2 rfl)
    exact (asksOnly_selection hc).bind fun _ => asksOnly_pure _ _ _
  | text c =>
    have hc : c ∈ among := h c (List.mem_singleton.2 rfl)
    exact (asksOnly_sliceText files hc).bind fun _ => asksOnly_pure _ _ _

theorem leads_serveAll : ∀ (demands : List (FileSystem × Demand)) (s : Session σ),
    (∀ p ∈ demands, ∀ c ∈ p.2.criteria p.1, c ∈ among) → slicer.Leads among s (slicer.serveAll demands s).2
  | [], _, _ => .refl
  | (files, demand) :: rest, s, h => by
    have hfirst : slicer.Leads among s ((slicer.serve files demand).leaves s) :=
      asksOnly_serve files demand (h _ List.mem_cons_self) s
    exact hfirst.trans (leads_serveAll rest _ fun p hp => h p (List.mem_cons_of_mem _ hp))

end Slicer
end SourceSlice
