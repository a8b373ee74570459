import SourceSlice.Proofs.Batch.Demand
/-!
# Slicing without a memory

A `PlainSlicer` calls its engine for every question and keeps nothing; what it gives depends on the demand and on the
files of the moment alone.  When an engine's answers are a function of the request, and of a criterion's file only as
far as criteria are compared, a slicer that keeps answers cannot be told from it (`serveAll_eq_plain`).
-/
namespace SourceSlice

variable {σ α β : Type}

structure PlainSlicer where
  answers : Request → Except SliceError String
  artifact : Path
  mode : SliceMode
  options : EngineOptions

namespace PlainSlicer

def request (p : PlainSlicer) (c : Criterion) : Request :=
  { criterion := c, artifact := p.artifact, options := p.options }

def ask (p : PlainSlicer) (c : Criterion) (d : Direction) : Except SliceError Selection :=
  (p.answers (p.request (c.towards d))).bind selectionOf

def selection (p : PlainSlicer) (c : Criterion) : Except SliceError Selection :=
  match p.mode with
  | .backward => p.ask c .backward
  | .forward => p.ask c .forward
  | .bidirectional => do
    let backward ← p.ask c .backward
    let forward ← p.ask c .forward
    return backward.union forward

def sliceText (p : PlainSlicer) (files : FileSystem) (c : Criterion) : Except SliceError String := do
  (← p.selection c).excerpt files

def collect (p : PlainSlicer) (files : FileSystem) : List Row → Except SliceError (List SliceResult)
  | [] => return []
  | row :: rest => match row.criterion? files with
    | none => p.collect files rest
    | some c => do
      let text ← p.sliceText files c
      return ⟨text, row.label⟩ :: (← p.collect files rest)

def runRows (p : PlainSlicer) (files : FileSystem) (rows : List Row) : Except SliceError BatchOutput := do
  Slicer.checkLabels (.ofResults (← p.collect files rows))

def runCriterion (p : PlainSlicer) (files : FileSystem) (c : Criterion) : Except SliceError BatchOutput := do
  return (∅ : BatchOutput).push ⟨← p.sliceText files c, none⟩

def run (p : PlainSlicer) (files : FileSystem) : BatchInput → Except SliceError BatchOutput
  | .table path => do p.runRows files (← Table.read files path)
  | .rows rows => p.runRows files rows
  | .adHoc criterion entryPoint =>
    match Criterion.ofKey criterion entryPoint with
    | .error error => .error (.invalidInvocation (.criterion error))
    | .ok c => p.runCriterion files c

def serve (p : PlainSlicer) (files : FileSystem) : Demand → Except SliceError Reply
  | .run input => do return .output (← p.run files input)
  | .rows rows => do return .output (← p.runRows files rows)
  | .criterion c => do return .output (← p.runCriterion files c)
  | .selection c => do return .selection (← p.selection c)
  | .text c => do return .text (← p.sliceText files c)

end PlainSlicer

def Demand.turned (turn : Criterion → Direction) : Demand → Demand
  | .criterion c => .criterion (c.towards (turn c))
  | .selection c => .selection (c.towards (turn c))
  | .text c => .text (c.towards (turn c))
  | demand => demand

/-- The direction that a caller puts into a criterion does not count. -/
theorem PlainSlicer.serve_turned (p : PlainSlicer) (files : FileSystem) (turn : Criterion → Direction)
    (demand : Demand) : p.serve files (demand.turned turn) = p.serve files demand := by
  cases demand <;> rfl

def Engine.Gives (engine : Engine σ) (answers : Request → Except SliceError String) : Prop :=
  ∀ r s, (engine r s).1 = answers r

/-- **Answers that do not depend on how a file is spelled**: on requests that differ in the spelling of one criterion the
engine fails both times, or gives the same text both times. -/
def SpellingFree (answers : Request → Except SliceError String) : Prop :=
  ∀ r c, c.slot = r.criterion.slot → (answers { r with criterion := c }).toOption = (answers r).toOption

theorem SpellingFree.ok {answers : Request → Except SliceError String} (h : SpellingFree answers) {r : Request}
    {c : Criterion} {text : String} (hc : c.slot = r.criterion.slot) (hr : answers r = .ok text) :
    answers { r with criterion := c } = .ok text := by
  have ht := h r c hc
  rw [hr] at ht
  cases hx : answers { r with criterion := c } with
  | ok x => rw [hx] at ht; exact congrArg Except.ok (Option.some.inj ht)
  | error e => rw [hx] at ht; cases ht

namespace Slicer

def plain (slicer : Slicer σ) (answers : Request → Except SliceError String) : PlainSlicer :=
  ⟨answers, slicer.artifact, slicer.mode, slicer.options⟩

end Slicer

def Session.True (s : Session σ) (p : PlainSlicer) : Prop :=
  ∀ c d a, s.kept? (c.towards d).slot = some a → p.ask c d = .ok a

/-- Work that gives what it would give without a memory, as long as what is kept is what the engine would answer. -/
def Slicing.Follows (work : Slicing σ α) (p : PlainSlicer) (plain : Except SliceError α) : Prop :=
  ∀ s, s.True p → work.gives s = plain ∧ (work.leaves s).True p

namespace Slicing.Follows

variable {p : PlainSlicer} {work : Slicing σ α} {plain : Except SliceError α}

theorem ofExcept (x : Except SliceError α) : (Slicing.ofExcept x : Slicing σ α).Follows p x := by
  intro s hs
  rw [Slicing.gives_ofExcept, Slicing.leaves_ofExcept]
  exact ⟨rfl, hs⟩

theorem pure (a : α) : (Pure.pure a : Slicing σ α).Follows p (.ok a) := ofExcept (.ok a)

theorem bind {next : α → Slicing σ β} {plainNext : α → Except SliceError β} (hwork : work.Follows p plain)
    (hnext : ∀ a, (next a).Follows p (plainNext a)) : (work >>= next).Follows p (plain >>= plainNext) := by
  intro s hs
  obtain ⟨hgives, hleaves⟩ := hwork s hs
  rw [Slicing.gives_bind, Slicing.leaves_bind, hgives]
  cases plain with
  | ok a => exact hnext a _ hleaves
  | error e => exact ⟨rfl, hleaves⟩

end Slicing.Follows

namespace Slicer

variable {slicer : Slicer σ} {answers : Request → Except SliceError String}

theorem ask_plain (slicer : Slicer σ) (answers : Request → Except SliceError String) (c : Criterion) (d : Direction) :
    (slicer.plain answers).ask c d = (answers (slicer.request (c.towards d))).bind selectionOf := rfl

theorem outcome_callFor (hgives : slicer.engine.Gives answers) (c : Criterion) (d : Direction) (s : Session σ) :
    (slicer.callFor (c.towards d) s).outcome = (slicer.plain answers).ask c d := by
  rw [Call.outcome, callFor, hgives, ask_plain]

theorem ask_plain_of_slot_eq (hfree : SpellingFree answers) {b c : Criterion} {d d' : Direction} {a : Selection}
    (hslot : (b.towards d').slot = (c.towards d).slot) (h : (slicer.plain answers).ask c d = .ok a) :
    (slicer.plain answers).ask b d' = .ok a := by
  rw [ask_plain] at h ⊢
  cases htext : answers (slicer.request (c.towards d)) with
  | error e => rw [htext] at h; cases h
  | ok text =>
    have hb : answers (slicer.request (b.towards d')) = .ok text :=
      SpellingFree.ok (r := slicer.request (c.towards d)) (c := b.towards d') hfree hslot htext
    rw [htext] at h
    rw [hb]
    exact h

theorem true_keeping (hfree : SpellingFree answers) {s : Session σ} {c : Criterion} {d : Direction} {a : Selection}
    (hs : s.True (slicer.plain answers)) (ha : (slicer.plain answers).ask c d = .ok a) :
    ((slicer.called (c.towards d) s).keeping (c.towards d).slot a).True (slicer.plain answers) := by
  intro b d' x hx
  rw [Session.kept?_keeping, kept?_called] at hx
  cases hk : s.kept? (b.towards d').slot with
  | some y =>
    rw [hk, Option.some_or] at hx
    rw [← Option.some.inj hx]
    exact hs b d' y hk
  | none =>
    rw [hk, Option.none_or] at hx
    split at hx
    -- the new answer is found by every question of its slot, however that spells the file
    next hslot =>
      rw [← Option.some.inj hx]
      exact ask_plain_of_slot_eq hfree hslot.symm ha
    next => cases hx

theorem follows_ask (hgives : slicer.engine.Gives answers) (hfree : SpellingFree answers) (c : Criterion)
    (d : Direction) : (slicer.ask c d).Follows (slicer.plain answers) ((slicer.plain answers).ask c d) := by
  intro s hs
  have hout := outcome_callFor hgives c d s
  rcases ask_cases slicer c d s with ⟨a, hk, h⟩ | ⟨a, -, ho, h⟩ | ⟨e, -, ho, h⟩
  · rw [Slicing.gives_of_ok h, Slicing.leaves_of_ok h, hs c d a hk]
    exact ⟨rfl, hs⟩
  · rw [hout] at ho
    rw [Slicing.gives_of_ok h, Slicing.leaves_of_ok h, ho]
    exact ⟨rfl, true_keeping hfree hs ho⟩
  · rw [hout] at ho
    rw [Slicing.gives_of_error h, Slicing.leaves_of_error h, ho]
    exact ⟨rfl, hs⟩

section Work

variable (hgives : slicer.engine.Gives answers) (hfree : SpellingFree answers)
include hgives hfree

theorem follows_selection (c : Criterion) :
    (slicer.selection c).Follows (slicer.plain answers) ((slicer.plain answers).selection c) := by
  have hask := follows_ask hgives hfree c
  have hmode : (slicer.plain answers).mode = slicer.mode := rfl
  rw [selection, PlainSlicer.selection, hmode]
  cases slicer.mode with
  | backward => exact hask .backward
  | forward => exact hask .forward
  | bidirectional => exact (hask .backward).bind fun _ => (hask .forward).bind fun _ => .pure _

theorem follows_sliceText (files : FileSystem) (c : Criterion) :
    (slicer.sliceText files c).Follows (slicer.plain answers) ((slicer.plain answers).sliceText files c) :=
  (follows_selection hgives hfree c).bind fun _ => .ofExcept _

theorem follows_collect (files : FileSystem) : ∀ rows : List Row,
    (slicer.collect files rows).Follows (slicer.plain answers) ((slicer.plain answers).collect files rows)
  | [] => .pure _
  | row :: rest => by
    have ih := follows_collect files rest
    rw [collect, PlainSlicer.collect]
    cases row.criterion? files with
    | none => exact ih
    | some c => exact (follows_sliceText hgives hfree files c).bind fun _ => ih.bind fun _ => .pure _

theorem follows_runRows (files : FileSystem) (rows : List Row) :
    (slicer.runRows files rows).Follows (slicer.plain answers) ((slicer.plain answers).runRows files rows) :=
  (follows_collect hgives hfree files rows).bind fun _ => .ofExcept _

theorem follows_runCriterion (files : FileSystem) (c : Criterion) :
    (slicer.runCriterion files c).Follows (slicer.plain answers) ((slicer.plain answers).runCriterion files c) :=
  (follows_sliceText hgives hfree files c).bind fun _ => .pure _

theorem follows_run (files : FileSystem) (input : BatchInput) :
    (slicer.run files input).Follows (slicer.plain answers) ((slicer.plain answers).run files input) := by
  cases input with
  | table path => exact Slicing.Follows.bind (.ofExcept _) fun rows => follows_runRows hgives hfree files rows
  | rows rows => exact follows_runRows hgives hfree files rows
  | adHoc criterion entryPoint =>
    rw [run, PlainSlicer.run]
    cases Criterion.ofKey criterion entryPoint with
    | error error => exact .ofExcept (.error _)
    | ok c => exact follows_runCriterion hgives hfree files c

theorem follows_serve (files : FileSystem) (demand : Demand) :
    (slicer.serve files demand).Follows (slicer.plain answers) ((slicer.plain answers).serve files demand) := by
  cases demand with
  | run input => exact (follows_run hgives hfree files input).bind fun _ => .pure _
  | rows rows => exact (follows_runRows hgives hfree files rows).bind fun _ => .pure _
  | criterion c => exact (follows_runCriterion hgives hfree files c).bind fun _ => .pure _
  | selection c => exact (follows_selection hgives hfree c).bind fun _ => .pure _
  | text c => exact (follows_sliceText hgives hfree files c).bind fun _ => .pure _

theorem serveAll_of_true : ∀ (demands : List (FileSystem × Demand)) (s : Session σ), s.True (slicer.plain answers) →
    (slicer.serveAll demands s).1 = demands.map (fun p => (slicer.plain answers).serve p.1 p.2) ∧
      (slicer.serveAll demands s).2.True (slicer.plain answers)
  | [], _, hs => ⟨rfl, hs⟩
  | (files, demand) :: rest, s, hs => by
    obtain ⟨hgive, hleave⟩ := follows_serve hgives hfree files demand s hs
    obtain ⟨hrest, hlast⟩ := serveAll_of_true rest _ hleave
    rw [serveAll_cons]
    exact ⟨congr (congrArg List.cons hgive) hrest, hlast⟩

end Work

/-- **Keeping answers changes no reply.**  After any demands whatever, each demand of a series is answered as without a
memory, from the engine's answers and the files of its own time; so neither what was served before nor the directions
in the caller's criteria have a part in it. -/
theorem serveAll_eq_plain (slicer : Slicer σ) (answers : Request → Except SliceError String)
    (hgives : slicer.engine.Gives answers) (hfree : SpellingFree answers) (e : σ)
    (before demands : List (FileSystem × Demand)) :
    let s := (slicer.serveAll before (.start e)).2
    (slicer.serveAll demands s).1 = demands.map (fun p => (slicer.plain answers).serve p.1 p.2) ∧
    ∀ turn, (slicer.serveAll (demands.map fun p => (p.1, p.2.turned turn)) s).1 = (slicer.serveAll demands s).1 := by
  intro s
  have hstart : (Session.start e).True (slicer.plain answers) := fun c d a h => nomatch h
  have hs : s.True (slicer.plain answers) := (serveAll_of_true hgives hfree before _ hstart).2
  refine ⟨(serveAll_of_true hgives hfree demands s hs).1, fun turn => ?_⟩
  rw [(serveAll_of_true hgives hfree _ s hs).1, (serveAll_of_true hgives hfree demands s hs).1, List.map_map]
  exact List.map_congr_left fun p _ => PlainSlicer.serve_turned _ p.1 turn p.2

/-- A file changes between two demands, and the second spells it in another way and asks in another direction: its text
is the new one. -/
theorem serveAll_eq_plain_changed_file :
    let answers (r : Request) : Except SliceError String :=
      if r.criterion.direction = .forward then .error (.engineFailed r.criterion.key (.exited 1) "") else .ok "a.c,2\n"
    let slicer : Slicer Unit := ⟨fun r s => (answers r, s), ⟨"a.bc"⟩, .backward, ⟨false⟩⟩
    let files (text : String) : FileSystem := ⟨[(["a.c"], .file (.bytes text.toUTF8) false)], []⟩
    let c (file : String) : Criterion := ⟨⟨file⟩, ⟨1, by decide⟩, "v", "main", none, .forward⟩
    slicer.engine.Gives answers ∧ SpellingFree answers ∧
      (slicer.serveAll [(files "x\ny\n", .text (c "a.c")), (files "x\nz\n", .text ((c "a.c/.").towards .backward))]
        (.start ())).1 = [.ok (.text "y\n"), .ok (.text "z\n")] := by
  intro answers slicer files c
  have hgives : slicer.engine.Gives answers := fun _ _ => rfl
  have hfree : SpellingFree answers := by
    intro r b h
    have hdirection : b.direction = r.criterion.direction := congrArg Criterion.Slot.direction h
    change (if b.direction = .forward then Except.error _ else Except.ok _).toOption = _
    rw [hdirection]
    change _ = (if r.criterion.direction = .forward then Except.error _ else Except.ok _).toOption
    split <;> rfl
  have hfirst : (slicer.plain answers).serve (files "x\ny\n") (.text (c "a.c")) = .ok (.text "y\n") := by rfl
  have hsecond : (slicer.plain answers).serve (files "x\nz\n") (.text ((c "a.c/.").towards .backward))
      = .ok (.text "z\n") := by rfl
  refine ⟨hgives, hfree, ((serveAll_eq_plain slicer answers hgives hfree () [] _).1).trans ?_⟩
  rw [List.map_cons, List.map_cons, List.map_nil, hfirst, hsecond]

end Slicer
end SourceSlice
