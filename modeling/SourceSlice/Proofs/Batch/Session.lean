import Mathlib.Data.Set.Basic
import Mathlib.Logic.Relation
import SourceSlice.Batch.Slicer
import SourceSlice.Proofs.Work
/-!
# Sessions

All that a slicer ever does is to ask its engine about criteria, one after the other.  `ask_cases` says the three
things that one question can do to a session, and `Slicer.AsksOnly` that some work is no more than a run of questions:
what every question keeps is then kept by every run, and holds in the middle of a batch as well as after it.
-/
namespace SourceSlice

open Criterion (Slot)

variable {σ α β : Type}

namespace Slicing

def leaves (work : Slicing σ α) (s : Session σ) : Session σ :=
  match work s with
  | .ok _ t => t
  | .error _ t => t

def gives (work : Slicing σ α) (s : Session σ) : Except SliceError α :=
  match work s with
  | .ok a _ => .ok a
  | .error e _ => .error e

variable {work : Slicing σ α} {next : α → Slicing σ β} {s t : Session σ} {a : α} {e : SliceError}

theorem leaves_of_ok (h : work s = .ok a t) : work.leaves s = t := by rw [leaves, h]

theorem leaves_of_error (h : work s = .error e t) : work.leaves s = t := by rw [leaves, h]

theorem gives_of_ok (h : work s = .ok a t) : work.gives s = .ok a := by rw [gives, h]

theorem gives_of_error (h : work s = .error e t) : work.gives s = .error e := by rw [gives, h]

theorem ofExcept_ok (a : α) (s : Session σ) : ofExcept (.ok a) s = .ok a s := rfl

theorem ofExcept_error (e : SliceError) (s : Session σ) : (ofExcept (.error e) : Slicing σ α) s = .error e s := rfl

@[simp] theorem ofExcept_ok_bind (a : α) (next : α → Slicing σ β) : (ofExcept (.ok a) >>= next) = next a := rfl

@[simp] theorem ofExcept_error_bind (e : SliceError) (next : α → Slicing σ β) :
    (ofExcept (.error e) >>= next) = ofExcept (.error e) := rfl

theorem leaves_ofExcept (x : Except SliceError α) (s : Session σ) : (ofExcept x).leaves s = s := by cases x <;> rfl

theorem gives_ofExcept (x : Except SliceError α) (s : Session σ) : (ofExcept x).gives s = x := by cases x <;> rfl

theorem gives_bind (work : Slicing σ α) (next : α → Slicing σ β) (s : Session σ) :
    (work >>= next).gives s = match work.gives s with
      | .ok a => (next a).gives (work.leaves s)
      | .error e => .error e := by
  cases h : work s with
  | ok a t => rw [gives, Work.bind_of_ok h, gives_of_ok h, leaves_of_ok h]; rfl
  | error e t => rw [gives_of_error (Work.bind_of_error h), gives_of_error h]

theorem leaves_bind (work : Slicing σ α) (next : α → Slicing σ β) (s : Session σ) :
    (work >>= next).leaves s = match work.gives s with
      | .ok a => (next a).leaves (work.leaves s)
      | .error _ => work.leaves s := by
  cases h : work s with
  | ok a t => rw [leaves, Work.bind_of_ok h, gives_of_ok h, leaves_of_ok h]; rfl
  | error e t => rw [leaves_of_error (Work.bind_of_error h), gives_of_error h, leaves_of_error h]

end Slicing

def Engine.printing (report : Request → String) : Engine Unit := fun r s => (.ok (report r), s)

namespace Call

def slot (call : Call) : Slot := call.request.criterion.slot

/-- The selection that a call's answer describes; there is none when the engine failed or its report is faulty. -/
def outcome (call : Call) : Except SliceError Selection := call.answer.bind selectionOf

end Call

def Session.kept? (s : Session σ) (slot : Slot) : Option Selection := Association.get? slot s.answers

def Session.keeping (s : Session σ) (slot : Slot) (answer : Selection) : Session σ :=
  { s with answers := s.answers ++ [(slot, answer)] }

theorem Session.kept?_keeping (s : Session σ) (slot k : Slot) (answer : Selection) :
    (s.keeping slot answer).kept? k = (s.kept? k).or (if slot = k then some answer else none) := by
  rw [kept?, keeping, Association.get?_append, Association.get?, Association.get?, kept?]

namespace Slicer

variable {slicer : Slicer σ} {c : Criterion} {d : Direction} {s t : Session σ} {a : Selection} {e : SliceError}

def callFor (slicer : Slicer σ) (c : Criterion) (s : Session σ) : Call :=
  ⟨slicer.request c, (slicer.engine (slicer.request c) s.engine).1⟩

def called (slicer : Slicer σ) (c : Criterion) (s : Session σ) : Session σ :=
  { s with engine := (slicer.engine (slicer.request c) s.engine).2, calls := s.calls ++ [slicer.callFor c s] }

theorem outcome_callFor_printing {slicer : Slicer Unit} {report : Request → String}
    (hengine : slicer.engine = .printing report) (c : Criterion) (s : Session Unit) :
    (slicer.callFor c s).outcome = selectionOf (report (slicer.request c)) := by
  rw [Call.outcome, callFor, hengine]
  rfl

@[simp] theorem kept?_called (slicer : Slicer σ) (c : Criterion) (s : Session σ) (k : Slot) :
    (slicer.called c s).kept? k = s.kept? k := rfl

@[simp] theorem slot_callFor (slicer : Slicer σ) (c : Criterion) (s : Session σ) :
    (slicer.callFor c s).slot = c.slot := rfl

theorem call_eq (slicer : Slicer σ) (c : Criterion) (s : Session σ) :
    slicer.call (slicer.request c) s = Slicing.ofExcept (slicer.callFor c s).answer (slicer.called c s) := by
  unfold call called callFor
  rcases slicer.engine (slicer.request c) s.engine with ⟨answer, engine⟩
  cases answer <;> rfl

theorem invoke_eq (slicer : Slicer σ) (c : Criterion) (s : Session σ) :
    slicer.invoke c s = Slicing.ofExcept (slicer.callFor c s).outcome (slicer.called c s) := by
  have hcall := call_eq slicer c s
  rw [invoke, Call.outcome]
  cases h : (slicer.callFor c s).answer with
  | ok text =>
    rw [h] at hcall
    exact Work.bind_of_ok hcall
  | error e =>
    rw [h] at hcall
    exact Work.bind_of_error hcall

theorem ask_of_kept (h : s.kept? (c.towards d).slot = some a) : slicer.ask c d s = .ok a s := by
  have hget : (get : Slicing σ (Session σ)) s = .ok s s := rfl
  rw [Session.kept?] at h
  rw [ask, Work.bind_of_ok hget, h]
  rfl

theorem ask_of_not_kept (h : s.kept? (c.towards d).slot = none) :
    slicer.ask c d s
      = (do let a ← slicer.invoke (c.towards d); keep (c.towards d).slot a; return a : Slicing σ Selection) s := by
  have hget : (get : Slicing σ (Session σ)) s = .ok s s := rfl
  rw [Session.kept?] at h
  rw [ask, Work.bind_of_ok hget, h]

theorem ask_of_outcome_ok (hk : s.kept? (c.towards d).slot = none)
    (ho : (slicer.callFor (c.towards d) s).outcome = .ok a) :
    slicer.ask c d s = .ok a ((slicer.called (c.towards d) s).keeping (c.towards d).slot a) := by
  have hinvoke : slicer.invoke (c.towards d) s = .ok a (slicer.called (c.towards d) s) := by
    rw [invoke_eq, ho, Slicing.ofExcept_ok]
  rw [ask_of_not_kept hk, Work.bind_of_ok hinvoke]
  rfl

theorem ask_of_outcome_error (hk : s.kept? (c.towards d).slot = none)
    (ho : (slicer.callFor (c.towards d) s).outcome = .error e) :
    slicer.ask c d s = .error e (slicer.called (c.towards d) s) := by
  have hinvoke : slicer.invoke (c.towards d) s = .error e (slicer.called (c.towards d) s) := by
    rw [invoke_eq, ho, Slicing.ofExcept_error]
  rw [ask_of_not_kept hk, Work.bind_of_error hinvoke]

/-- **What one question does**: it is answered by what was kept and nothing changes; or the engine is called, and its
answer is given and kept; or the engine is called and there is no answer, so nothing is kept. -/
theorem ask_cases (slicer : Slicer σ) (c : Criterion) (d : Direction) (s : Session σ) :
    (∃ a, s.kept? (c.towards d).slot = some a ∧ slicer.ask c d s = .ok a s) ∨
    (∃ a, s.kept? (c.towards d).slot = none ∧ (slicer.callFor (c.towards d) s).outcome = .ok a ∧
      slicer.ask c d s = .ok a ((slicer.called (c.towards d) s).keeping (c.towards d).slot a)) ∨
    (∃ e, s.kept? (c.towards d).slot = none ∧ (slicer.callFor (c.towards d) s).outcome = .error e ∧
      slicer.ask c d s = .error e (slicer.called (c.towards d) s)) := by
  cases hk : s.kept? (c.towards d).slot with
  | some a => exact .inl ⟨a, rfl, ask_of_kept hk⟩
  | none => cases ho : (slicer.callFor (c.towards d) s).outcome with
    | ok a => exact .inr (.inl ⟨a, rfl, rfl, ask_of_outcome_ok hk ho⟩)
    | error e => exact .inr (.inr ⟨e, rfl, rfl, ask_of_outcome_error hk ho⟩)

theorem sliceText_of_selection {files : FileSystem} {text : String} (h : slicer.selection c s = .ok a t)
    (htext : a.excerpt files = .ok text) : slicer.sliceText files c s = .ok text t := by
  rw [sliceText, Work.bind_of_ok h, htext]
  rfl

/-! ## Runs of questions -/

def criteriaOfRows (files : FileSystem) (rows : List Row) : List Criterion := rows.filterMap (·.criterion? files)

def Asks (slicer : Slicer σ) (among : Set Criterion) (s t : Session σ) : Prop :=
  ∃ c ∈ among, ∃ d, t = (slicer.ask c d).leaves s

/-- **Questions about these criteria lead from one session to another.** -/
def Leads (slicer : Slicer σ) (among : Set Criterion) : Session σ → Session σ → Prop :=
  Relation.ReflTransGen (slicer.Asks among)

def AsksOnly (slicer : Slicer σ) (among : Set Criterion) (work : Slicing σ α) : Prop :=
  ∀ s, slicer.Leads among s (work.leaves s)

variable {among : Set Criterion}

theorem Leads.refl : slicer.Leads among s s := Relation.ReflTransGen.refl

theorem Leads.trans {u : Session σ} (h : slicer.Leads among s t) (h' : slicer.Leads among t u) :
    slicer.Leads among s u := Relation.ReflTransGen.trans h h'

theorem asksOnly_ask (hc : c ∈ among) (d : Direction) : slicer.AsksOnly among (slicer.ask c d) :=
  fun _ => .single ⟨c, hc, d, rfl⟩

theorem asksOnly_ofExcept (slicer : Slicer σ) (among : Set Criterion) (x : Except SliceError α) :
    slicer.AsksOnly among (Slicing.ofExcept x : Slicing σ α) := by
  intro s
  rw [Slicing.leaves_ofExcept]
  exact .refl

theorem asksOnly_pure (slicer : Slicer σ) (among : Set Criterion) (a : α) :
    slicer.AsksOnly among (pure a : Slicing σ α) := fun _ => .refl

theorem AsksOnly.bind {work : Slicing σ α} {next : α → Slicing σ β} (hwork : slicer.AsksOnly among work)
    (hnext : ∀ a, slicer.AsksOnly among (next a)) : slicer.AsksOnly among (work >>= next) := by
  intro s
  rw [Slicing.leaves_bind]
  cases work.gives s with
  | ok a => exact (hwork s).trans (hnext a _)
  | error e => exact hwork s

theorem asksOnly_selection (hc : c ∈ among) : slicer.AsksOnly among (slicer.selection c) := by
  rw [selection]
  cases slicer.mode with
  | backward => exact asksOnly_ask hc _
  | forward => exact asksOnly_ask hc _
  | bidirectional =>
    exact (asksOnly_ask hc _).bind fun _ => (asksOnly_ask hc _).bind fun _ => asksOnly_pure _ _ _

theorem asksOnly_sliceText (files : FileSystem) (hc : c ∈ among) : slicer.AsksOnly among (slicer.sliceText files c) :=
  (asksOnly_selection hc).bind fun _ => asksOnly_ofExcept _ _ _

theorem asksOnly_collect (files : FileSystem) : ∀ rows : List Row, (∀ c ∈ criteriaOfRows files rows, c ∈ among) →
    slicer.AsksOnly among (slicer.collect files rows)
  | [], _ => asksOnly_pure _ _ _
  | row :: rest, h => by
    rw [criteriaOfRows] at h
    rw [collect]
    cases hr : row.criterion? files with
    | none =>
      rw [List.filterMap_cons_none hr] at h
      exact asksOnly_collect files rest h
    | some c =>
      rw [List.filterMap_cons_some hr] at h
      have hrest := asksOnly_collect files rest fun b hb => h b (List.mem_cons_of_mem _ hb)
      exact (asksOnly_sliceText files (h c List.mem_cons_self)).bind fun _ => hrest.bind fun _ => asksOnly_pure _ _ _

theorem asksOnly_runRows (files : FileSystem) {rows : List Row} (h : ∀ c ∈ criteriaOfRows files rows, c ∈ among) :
    slicer.AsksOnly among (slicer.runRows files rows) :=
  (asksOnly_collect files rows h).bind fun _ => asksOnly_ofExcept _ _ _

theorem asksOnly_runCriterion (files : FileSystem) (hc : c ∈ among) :
    slicer.AsksOnly among (slicer.runCriterion files c) :=
  (asksOnly_sliceText files hc).bind fun _ => asksOnly_pure _ _ _

end Slicer
end SourceSlice
