import SourceSlice.Proofs.Batch.Demand
import SourceSlice.Proofs.Engine.Nameless
/-!
# Slices do not show lines without a file

Two engines may differ in the nameless lines that they put into their reports.  Whoever slices with the one or the other
keeps answers that agree in their entries with a name (`Session.AlikeNamed`), and that is all that texts depend on.
`Slicing.SameNamed` says so of some work; it holds of one question, and from there of everything that is demanded of a
slicer, and of every series of demands.
-/
namespace SourceSlice

open Report (Interspersed)

variable {σ α β : Type}

/-- **Answers that agree up to nameless lines**: the one report is the other with such lines put in, or both fail in the
same way. -/
inductive AnswersInterspersed : Except SliceError String → Except SliceError String → Prop
  | ok {report padded : String} : Interspersed report padded → AnswersInterspersed (.ok report) (.ok padded)
  | error (e : SliceError) : AnswersInterspersed (.error e) (.error e)

/-- **An engine that puts nameless lines into the reports of another** and is otherwise like it. -/
def Engine.InterspersedBy (engine padded : Engine σ) : Prop :=
  ∀ r e, AnswersInterspersed (engine r e).1 (padded r e).1 ∧ (padded r e).2 = (engine r e).2

theorem attributed_selectionOf {report padded : String} (h : Interspersed report padded) :
    (selectionOf padded).map (·.attributed) = (selectionOf report).map (·.attributed) := by
  have hparse := h.attributed_parse
  unfold selectionOf
  cases hp : Report.parse padded <;> cases hr : Report.parse report <;> rw [hp, hr] at hparse
  · exact congrArg (fun fault => Except.error (SliceError.malformedReport fault)) (Except.error.inj hparse)
  · cases hparse
  · cases hparse
  · exact congrArg Except.ok (Except.ok.inj hparse)

theorem AnswersInterspersed.attributed {a b : Except SliceError String} (h : AnswersInterspersed a b) :
    (b.bind selectionOf).map (·.attributed) = (a.bind selectionOf).map (·.attributed) := by
  cases h with
  | ok h => exact attributed_selectionOf h
  | error e => rfl

/-! ## Sessions and work side by side -/

def Session.namedAnswers (s : Session σ) : List (Criterion.Slot × Selection) :=
  s.answers.map fun kept => (kept.1, kept.2.attributed)

/-- **Two sessions are alike but for nameless entries** in the answers that they keep. -/
structure Session.AlikeNamed (s t : Session σ) : Prop where
  engine : t.engine = s.engine
  answers : t.namedAnswers = s.namedAnswers

theorem Session.AlikeNamed.kept? {s t : Session σ} (h : s.AlikeNamed t) (slot : Criterion.Slot) :
    (t.kept? slot).map (·.attributed) = (s.kept? slot).map (·.attributed) := by
  have hfound := congrArg (Association.get? slot) h.answers
  rwa [namedAnswers, namedAnswers, Association.get?_map, Association.get?_map] at hfound

namespace Slicing

/-- **Two works do the same but for nameless entries**: from sessions that are alike they lead to such sessions, both
with results in a relation or both with the same failure. -/
def SameNamed (rel : α → α → Prop) (work padded : Slicing σ α) : Prop :=
  ∀ s t, s.AlikeNamed t →
    Work.Both work padded s t (fun a s' b t' => rel a b ∧ s'.AlikeNamed t') fun s' t' => s'.AlikeNamed t'

variable {rel : α → α → Prop} {rel' : β → β → Prop} {work padded : Slicing σ α} {s t : Session σ}

theorem SameNamed.ofExcept (x : Except SliceError α) :
    SameNamed (σ := σ) Eq (Slicing.ofExcept x) (Slicing.ofExcept x) := by
  intro s t h
  cases x with
  | ok a => exact ⟨rfl, h⟩
  | error e => exact ⟨rfl, h⟩

theorem SameNamed.pure {a b : α} (h : rel a b) : SameNamed (σ := σ) rel (Pure.pure a) (Pure.pure b) :=
  fun _ _ halike => ⟨h, halike⟩

theorem SameNamed.bind {next next' : α → Slicing σ β} (hwork : SameNamed rel work padded)
    (hnext : ∀ a b, rel a b → SameNamed rel' (next a) (next' b)) :
    SameNamed rel' (work >>= next) (padded >>= next') :=
  fun s t h => .bind ((hwork s t h).imp (fun a s' b t' hdone => hnext a b hdone.1 s' t' hdone.2) fun _ _ h => h)

theorem SameNamed.leaves (hwork : SameNamed rel work padded) (h : s.AlikeNamed t) :
    (work.leaves s).AlikeNamed (padded.leaves t) := by
  rcases (hwork s t h).cases with ⟨a, s', b, t', hs, ht, -, halike⟩ | ⟨e, s', t', hs, ht, halike⟩
  · rwa [leaves_of_ok hs, leaves_of_ok ht]
  · rwa [leaves_of_error hs, leaves_of_error ht]

theorem SameNamed.gives (hwork : SameNamed Eq work padded) (h : s.AlikeNamed t) : padded.gives t = work.gives s := by
  rcases (hwork s t h).cases with ⟨a, s', b, t', hs, ht, rfl, -⟩ | ⟨e, s', t', hs, ht, -⟩
  · rw [gives_of_ok hs, gives_of_ok ht]
  · rw [gives_of_error hs, gives_of_error ht]

end Slicing

def Reply.attributed : Reply → Reply
  | .selection s => .selection s.attributed
  | reply => reply

namespace Slicer

open Slicing (SameNamed)

def withEngine (slicer : Slicer σ) (engine : Engine σ) : Slicer σ := { slicer with engine }

variable {slicer : Slicer σ} {padded : Engine σ}

section

variable (hpadded : slicer.engine.InterspersedBy padded)
include hpadded

theorem callFor_withEngine {s t : Session σ} (h : s.AlikeNamed t) (c : Criterion) :
    (((slicer.withEngine padded).callFor c t).outcome.map (·.attributed)
      = (slicer.callFor c s).outcome.map (·.attributed)) ∧
      (slicer.called c s).AlikeNamed ((slicer.withEngine padded).called c t) := by
  have hrequest : (slicer.withEngine padded).request c = slicer.request c := rfl
  have hengine : (slicer.withEngine padded).engine = padded := rfl
  obtain ⟨hanswer, hstate⟩ := hpadded (slicer.request c) s.engine
  unfold Call.outcome callFor called
  rw [hrequest, hengine, h.engine]
  exact ⟨hanswer.attributed, hstate, h.answers⟩

theorem sameNamed_ask (c : Criterion) (d : Direction) :
    SameNamed (fun a b => b.attributed = a.attributed) (slicer.ask c d) ((slicer.withEngine padded).ask c d) := by
  intro s t h
  have hkept := h.kept? (c.towards d).slot
  obtain ⟨hout, hcalled⟩ := callFor_withEngine hpadded h (c.towards d)
  rcases ask_cases slicer c d s with ⟨a, hk, hask⟩ | ⟨a, hk, ho, hask⟩ | ⟨e, hk, ho, hask⟩
  · rw [hk] at hkept
    obtain ⟨b, hb, hab⟩ := Option.map_eq_some_iff.1 hkept
    exact Work.both_of_ok hask (ask_of_kept hb) ⟨hab, h⟩
  · rw [hk] at hkept
    rw [ho] at hout
    have hnone := Option.map_eq_none_iff.1 hkept
    cases ho' : ((slicer.withEngine padded).callFor (c.towards d) t).outcome with
    | error e => rw [ho'] at hout; cases hout
    | ok b =>
      rw [ho'] at hout
      have hab : b.attributed = a.attributed := Except.ok.inj hout
      refine Work.both_of_ok hask (ask_of_outcome_ok hnone ho') ⟨hab, hcalled.engine, ?_⟩
      change List.map _ (_ ++ [_]) = List.map _ (_ ++ [_])
      rw [List.map_append, List.map_append]
      exact congr (congrArg _ hcalled.answers) (by rw [List.map_singleton, List.map_singleton, hab])
  · rw [hk] at hkept
    rw [ho] at hout
    have hnone := Option.map_eq_none_iff.1 hkept
    cases ho' : ((slicer.withEngine padded).callFor (c.towards d) t).outcome with
    | ok b => rw [ho'] at hout; cases hout
    | error e' =>
      rw [ho'] at hout
      rw [Except.error.inj hout] at ho'
      exact Work.both_of_error hask (ask_of_outcome_error hnone ho') hcalled

theorem sameNamed_selection (c : Criterion) :
    SameNamed (fun a b => b.attributed = a.attributed) (slicer.selection c)
      ((slicer.withEngine padded).selection c) := by
  have hask := sameNamed_ask hpadded c
  have hmode : (slicer.withEngine padded).mode = slicer.mode := rfl
  rw [selection, selection, hmode]
  cases slicer.mode with
  | backward => exact hask .backward
  | forward => exact hask .forward
  | bidirectional =>
    refine (hask .backward).bind fun a b hab => (hask .forward).bind fun a' b' hab' => .pure ?_
    rw [Selection.attributed_union, Selection.attributed_union, hab, hab']

theorem sameNamed_sliceText (files : FileSystem) (c : Criterion) :
    SameNamed Eq (slicer.sliceText files c) ((slicer.withEngine padded).sliceText files c) := by
  refine (sameNamed_selection hpadded c).bind fun a b hab => ?_
  rw [← a.excerpt_attributed, ← b.excerpt_attributed, hab]
  exact .ofExcept _

theorem sameNamed_collect (files : FileSystem) : ∀ rows : List Row,
    SameNamed Eq (slicer.collect files rows) ((slicer.withEngine padded).collect files rows)
  | [] => .pure rfl
  | row :: rest => by
    have ih := sameNamed_collect files rest
    rw [collect, collect]
    cases row.criterion? files with
    | none => exact ih
    | some c =>
      refine (sameNamed_sliceText hpadded files c).bind ?_
      rintro text _ rfl
      refine ih.bind ?_
      rintro texts _ rfl
      exact .pure rfl

theorem sameNamed_runRows (files : FileSystem) (rows : List Row) :
    SameNamed Eq (slicer.runRows files rows) ((slicer.withEngine padded).runRows files rows) := by
  refine (sameNamed_collect hpadded files rows).bind ?_
  rintro results _ rfl
  exact .ofExcept _

theorem sameNamed_runCriterion (files : FileSystem) (c : Criterion) :
    SameNamed Eq (slicer.runCriterion files c) ((slicer.withEngine padded).runCriterion files c) := by
  refine (sameNamed_sliceText hpadded files c).bind ?_
  rintro text _ rfl
  exact .pure rfl

theorem sameNamed_run (files : FileSystem) (input : BatchInput) :
    SameNamed Eq (slicer.run files input) ((slicer.withEngine padded).run files input) := by
  cases input with
  | table path =>
    refine (SameNamed.ofExcept (Table.read files path)).bind ?_
    rintro rows _ rfl
    exact sameNamed_runRows hpadded files rows
  | rows rows => exact sameNamed_runRows hpadded files rows
  | adHoc criterion entryPoint =>
    rw [run, run]
    cases Criterion.ofKey criterion entryPoint with
    | error error => exact .ofExcept (.error _)
    | ok c => exact sameNamed_runCriterion hpadded files c

theorem sameNamed_serve (files : FileSystem) (demand : Demand) :
    SameNamed (fun a b => b.attributed = a.attributed) (slicer.serve files demand)
      ((slicer.withEngine padded).serve files demand) := by
  cases demand with
  | run input => exact (sameNamed_run hpadded files input).bind fun _ _ h => .pure (by rw [h])
  | rows rows => exact (sameNamed_runRows hpadded files rows).bind fun _ _ h => .pure (by rw [h])
  | criterion c => exact (sameNamed_runCriterion hpadded files c).bind fun _ _ h => .pure (by rw [h])
  | selection c => exact (sameNamed_selection hpadded c).bind fun _ _ h => .pure (congrArg Reply.selection h)
  | text c => exact (sameNamed_sliceText hpadded files c).bind fun _ _ h => .pure (by rw [h])

theorem alikeNamed_serveAll : ∀ (demands : List (FileSystem × Demand)) {s t : Session σ}, s.AlikeNamed t →
    (slicer.serveAll demands s).2.AlikeNamed ((slicer.withEngine padded).serveAll demands t).2
  | [], _, _, h => h
  | (files, demand) :: rest, s, t, h => by
    rw [serveAll_cons, serveAll_cons]
    exact alikeNamed_serveAll rest ((sameNamed_serve hpadded files demand).leaves h)

end

end Slicer

/-- **Lines without a file never reach the text.**  Taking the nameless entries out of a selection takes out these and no
others, a second time nothing more; it commutes with union, and the excerpt is the same with and without them, over any
files.  So an engine that puts complete nameless lines before the lines of its reports or between them changes the text
of no slice, whatever was demanded of the slicer before. -/
theorem Selection.attributed_unseen (s b f : Selection) :
    s.attributed.attributed = s.attributed ∧ NamelessDropped s s.attributed ∧
    (b.union f).attributed = b.attributed.union f.attributed ∧
    (∀ files, s.attributed.excerpt files = s.excerpt files) ∧
    ∀ {σ : Type} (slicer : Slicer σ) (padded : Engine σ), slicer.engine.InterspersedBy padded →
      ∀ (e : σ) (before : List (FileSystem × Demand)) (files : FileSystem) (c : Criterion),
        ((slicer.withEngine padded).sliceText files c).gives ((slicer.withEngine padded).serveAll before (.start e)).2
          = (slicer.sliceText files c).gives (slicer.serveAll before (.start e)).2 := by
  refine ⟨attributed_attributed s, namelessDropped_attributed s, attributed_union b f, s.excerpt_attributed, ?_⟩
  intro σ slicer padded hpadded e before files c
  have hsessions := Slicer.alikeNamed_serveAll hpadded before (s := .start e) (t := .start e) ⟨rfl, rfl⟩
  exact (Slicer.sameNamed_sliceText hpadded files c).gives hsessions

/-- A nameless line before the first line of each report, and one between its lines; the slice is in both directions. -/
theorem Selection.attributed_unseen_between_lines :
    let slicer : Slicer Unit := ⟨.printing fun _ => "a.c,2\nb.c", ⟨"a.bc"⟩, .bidirectional, ⟨false⟩⟩
    let padded : Engine Unit := .printing fun _ => ",7\r\na.c,2\n,1, +2\nb.c"
    let files : FileSystem :=
      ⟨[(["a.c"], .file (.bytes "x\ny\n".toUTF8) false), (["b.c"], .file (.bytes "".toUTF8) false)], []⟩
    let c : Criterion := ⟨⟨"a.c"⟩, ⟨1, by decide⟩, "v", "main", none, .backward⟩
    slicer.engine.InterspersedBy padded ∧
      selectionOf ",7\r\na.c,2\n,1, +2\nb.c"
        = .ok ⟨[⟨"", .ofList [1, 2, 7]⟩, ⟨"a.c", .ofList [2]⟩, ⟨"b.c", ∅⟩]⟩ ∧
      ((slicer.withEngine padded).sliceText files c).gives (.start ()) = .ok "y\n" := by
  intro slicer padded files c
  have hfirst : Report.Nameless ",7\r\n" := Report.nameless_of_reads (.inr (by decide)) (by decide)
  have hsecond : Report.Nameless ",1, +2\n" := Report.nameless_of_reads (.inr (by decide)) (by decide)
  have hbetween : Interspersed "a.c,2\nb.c" "a.c,2\n,1, +2\nb.c" :=
    .put (x := "a.c,2\n") (y := "b.c") .same (.inr (by decide)) hsecond
  have hbefore : Interspersed "a.c,2\nb.c" ",7\r\na.c,2\n,1, +2\nb.c" :=
    .put (x := "") (y := "a.c,2\n,1, +2\nb.c") hbetween (.inl rfl) hfirst
  have hpadded : slicer.engine.InterspersedBy padded := fun _ _ => ⟨.ok hbefore, rfl⟩
  let x : Selection := ⟨[⟨"a.c", .ofList [2]⟩, ⟨"b.c", ∅⟩]⟩
  have hx : selectionOf "a.c,2\nb.c" = .ok x := by rfl
  have hunion : x.union x = x := by decide
  have hselection : (slicer.selection c).gives (.start ()) = .ok x := by
    rw [Slicer.gives_selection_of_reports (a := "a.c,2\nb.c") (b := "a.c,2\nb.c") rfl rfl rfl rfl rfl, hx]
    exact congrArg Except.ok hunion
  have htext : (slicer.sliceText files c).gives (.start ()) = .ok "y\n" := by
    rw [Slicer.gives_sliceText, hselection]
    rfl
  refine ⟨hpadded, by rfl, ?_⟩
  exact ((Selection.attributed_unseen ∅ ∅ ∅).2.2.2.2 slicer padded hpadded () [] files c).trans htext

end SourceSlice
