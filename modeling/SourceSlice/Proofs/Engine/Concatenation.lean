import SourceSlice.Proofs.Batch.Session
import SourceSlice.Proofs.Selection.Union
/-!
# Reports one after the other

Two reports in one text, the first ended by a line's end, describe the union of what each describes, and the first
fault of the text is the first fault of them (`parse_append`).  Reading a report into a selection that holds something
already is the union with it (`addLines_union`), wherever the reading stops.
-/
namespace SourceSlice

namespace Report

open Text

/-- A text in which every line has its end: it is empty, or closed by a line's end. -/
def Complete (report : String) : Prop := report = "" ∨ report.toList.getLast? = some '\n'

/-! ## Lines -/

theorem dropReturns_append {m : List (List Char)} (hm : m ≠ []) : ∀ l : List (List Char),
    dropReturns (l ++ m) = l.map dropReturn ++ dropReturns m
  | [] => rfl
  | line :: rest => by
    obtain ⟨x, xs, hx⟩ := List.exists_cons_of_ne_nil (List.append_ne_nil_of_right_ne_nil rest hm)
    have ih := dropReturns_append hm rest
    rw [hx] at ih
    rw [List.cons_append, hx, dropReturns, ih]
    · rfl
    · simp

theorem lines_append_cons (s t : List Char) : lines (s ++ '\n' :: t) = (splitOn '\n' s).map dropReturn ++ lines t := by
  rw [lines, splitOn_append_cons, dropReturns_append (splitOn_ne_nil '\n' t), lines]

theorem addLines_append (m : List (List Char)) : ∀ (l : List (List Char)) (s : Selection),
    addLines s (l ++ m) = (addLines s l).bind fun s => addLines s m
  | [], _ => rfl
  | line :: rest, s => by
    rw [List.cons_append, addLines, addLines]
    cases addLine s line with
    | ok s => exact addLines_append m rest s
    | error fault => rfl

/-! ## Reading on from a selection -/

theorem addLine_union (s t : Selection) (line : List Char) :
    addLine (s.union t) line = (addLine t line).map s.union := by
  unfold addLine
  split
  · rfl
  · split
    · rfl
    next file fields _ =>
      cases numbers line fields with
      | ok lines => exact congrArg Except.ok (s.union_insertMany t (String.ofList file) lines).symm
      | error fault => rfl

theorem addLines_union (s : Selection) : ∀ (l : List (List Char)) (t : Selection),
    addLines (s.union t) l = (addLines t l).map s.union
  | [], _ => rfl
  | line :: rest, t => by
    rw [addLines, addLines, addLine_union]
    cases addLine t line with
    | ok t => exact addLines_union s rest t
    | error fault => rfl

theorem addLines_eq_map_union (s : Selection) (l : List (List Char)) : addLines s l = (addLines ∅ l).map s.union := by
  rw [← addLines_union, Selection.union_empty]

theorem parse_append_eq_bind {a : String} (ha : Complete a) (b : String) :
    parse (a ++ b) = (parse a).bind fun s => (parse b).map s.union := by
  have hread (s : Selection) : addLines s (lines b.toList) = (parse b).map s.union := addLines_eq_map_union s _
  rcases ha with rfl | hlast
  · rw [String.empty_append]
    change parse b = (parse b).map (∅ : Selection).union
    exact hread ∅
  · obtain ⟨body, hbody⟩ := List.getLast?_eq_some_iff.1 hlast
    have hone : parse a = addLines ∅ ((splitOn '\n' body).map dropReturn) := by
      -- after the last line's end there is one more piece, and it is blank
      rw [parse, hbody, lines_append_cons, addLines_append]
      cases addLines ∅ ((splitOn '\n' body).map dropReturn) <;> rfl
    have hboth : (a ++ b).toList = body ++ '\n' :: b.toList := by
      rw [String.toList_append, hbody, List.append_assoc]
      rfl
    rw [hone, parse, hboth, lines_append_cons, addLines_append]
    exact congrArg _ (funext hread)

end Report

open Report (Complete)

theorem selectionOf_append {a : String} (ha : Complete a) (b : String) :
    selectionOf (a ++ b) = (selectionOf a).bind fun s => (selectionOf b).map s.union := by
  unfold selectionOf
  rw [Report.parse_append_eq_bind ha]
  cases Report.parse a with
  | error fault => rfl
  | ok s => cases Report.parse b <;> rfl

namespace Slicer

variable {σ : Type} {slicer : Slicer σ} {c : Criterion} {d : Direction} {s : Session σ} {a b : String} {e : σ}

theorem gives_ask_of_not_kept (hk : s.kept? (c.towards d).slot = none) :
    (slicer.ask c d).gives s = (slicer.callFor (c.towards d) s).outcome := by
  cases ho : (slicer.callFor (c.towards d) s).outcome with
  | ok x => exact Slicing.gives_of_ok (ask_of_outcome_ok hk ho)
  | error err => exact Slicing.gives_of_error (ask_of_outcome_error hk ho)

theorem outcome_callFor_of_answer (h : (slicer.engine (slicer.request c) s.engine).1 = .ok a) :
    (slicer.callFor c s).outcome = selectionOf a := by
  rw [Call.outcome, callFor, h]
  rfl

theorem slot_towards_ne (c : Criterion) : (c.towards .backward).slot ≠ (c.towards .forward).slot := fun h =>
  nomatch (congrArg Criterion.Slot.direction h : Direction.backward = .forward)

theorem gives_selection_of_reports (hmode : slicer.mode = .bidirectional)
    (hback : s.kept? (c.towards .backward).slot = none) (hforth : s.kept? (c.towards .forward).slot = none)
    (ha : slicer.engine (slicer.request (c.towards .backward)) s.engine = (.ok a, e))
    (hb : (slicer.engine (slicer.request (c.towards .forward)) e).1 = .ok b) :
    (slicer.selection c).gives s = (selectionOf a).bind fun x => (selectionOf b).map x.union := by
  have hselection : slicer.selection c = do
      let backward ← slicer.ask c .backward
      let forward ← slicer.ask c .forward
      return backward.union forward := by rw [selection, hmode]
  have hfirst : (slicer.callFor (c.towards .backward) s).outcome = selectionOf a :=
    outcome_callFor_of_answer (congrArg Prod.fst ha)
  rw [hselection, Slicing.gives_bind, gives_ask_of_not_kept hback, hfirst]
  cases hx : selectionOf a with
  | error err => rfl
  | ok x =>
    -- the backward answer is kept now, which the forward question does not see
    let t := (slicer.called (c.towards .backward) s).keeping (c.towards .backward).slot x
    have hleaves : (slicer.ask c .backward).leaves s = t :=
      Slicing.leaves_of_ok (ask_of_outcome_ok hback (hfirst.trans hx))
    have hnone : t.kept? (c.towards .forward).slot = none := by
      rw [Session.kept?_keeping, kept?_called, hforth, if_neg (slot_towards_ne c)]
      rfl
    have hengine : t.engine = e := congrArg Prod.snd ha
    have hsecond : (slicer.callFor (c.towards .forward) t).outcome = selectionOf b :=
      outcome_callFor_of_answer (hengine ▸ hb)
    change (slicer.ask c .forward >>= fun forward => pure (x.union forward)).gives _ = _
    rw [hleaves, Slicing.gives_bind, gives_ask_of_not_kept hnone, hsecond]
    cases selectionOf b <;> rfl

theorem gives_sliceText (slicer : Slicer σ) (files : FileSystem) (c : Criterion) (s : Session σ) :
    (slicer.sliceText files c).gives s = ((slicer.selection c).gives s).bind (·.excerpt files) := by
  rw [sliceText, Slicing.gives_bind]
  cases (slicer.selection c).gives s with
  | ok x => exact Slicing.gives_ofExcept _ _
  | error err => rfl

end Slicer

namespace Report

open Slicer

/-- **Reading turns concatenation into union.**  A text that goes on with `b` after complete lines `a` is read as the
union of the two, and where one of them has a fault, as the first of these; so it is read exactly when both are.  An
engine that answers `a` backward and `b` forward, and of whose answers none is kept, makes the slice of `a ++ b`. -/
theorem parse_append (a b : String) (ha : Complete a) :
    (parse (a ++ b) = match parse a, parse b with
      | .ok s, .ok t => .ok (s.union t)
      | .error fault, _ => .error fault
      | .ok _, .error fault => .error fault) ∧
    ((∃ u, parse (a ++ b) = .ok u) ↔ (∃ s, parse a = .ok s) ∧ ∃ t, parse b = .ok t) ∧
    ∀ {σ : Type} (slicer : Slicer σ) (files : FileSystem) (c : Criterion) (s : Session σ) (e : σ),
      slicer.mode = .bidirectional →
      s.kept? (c.towards .backward).slot = none → s.kept? (c.towards .forward).slot = none →
      slicer.engine (slicer.request (c.towards .backward)) s.engine = (.ok a, e) →
      (slicer.engine (slicer.request (c.towards .forward)) e).1 = .ok b →
      (slicer.sliceText files c).gives s = (selectionOf (a ++ b)).bind (·.excerpt files) := by
  rw [parse_append_eq_bind ha]
  refine ⟨?_, ?_, fun slicer files c s e hmode hback hforth hengine hengine' => ?_⟩
  · cases parse a with
    | error fault => rfl
    | ok s => cases parse b <;> rfl
  · cases parse a with
    | error fault => exact ⟨(fun ⟨_, h⟩ => nomatch h), (fun ⟨⟨_, h⟩, _⟩ => nomatch h)⟩
    | ok s => cases parse b with
      | error fault => exact ⟨(fun ⟨_, h⟩ => nomatch h), (fun ⟨_, _, h⟩ => nomatch h)⟩
      | ok t => exact ⟨fun _ => ⟨⟨s, rfl⟩, t, rfl⟩, fun _ => ⟨s.union t, rfl⟩⟩
  · rw [gives_sliceText, gives_selection_of_reports hmode hback hforth hengine hengine', selectionOf_append ha]

/-- Both reports name one file; the second names another one before it, without any line. -/
theorem parse_append_two_reports :
    let answer (r : Request) : String := if r.criterion.direction = .forward then "b.c\na.c,1" else "a.c,2\r\n"
    let slicer : Slicer Unit := ⟨.printing answer, ⟨"a.bc"⟩, .bidirectional, ⟨false⟩⟩
    let files : FileSystem :=
      ⟨[(["a.c"], .file (.bytes "x\ny\nz\n".toUTF8) false), (["b.c"], .file (.bytes "w\n".toUTF8) false)], []⟩
    let c : Criterion := ⟨⟨"a.c"⟩, ⟨2, by decide⟩, "v", "main", none, .backward⟩
    Complete "a.c,2\r\n" ∧
      parse ("a.c,2\r\n" ++ "b.c\na.c,1") = .ok ⟨[⟨"a.c", .ofList [1, 2]⟩, ⟨"b.c", .ofList []⟩]⟩ ∧
      (slicer.sliceText files c).gives (.start ()) = .ok "x\ny\n" := by
  intro answer slicer files c
  have ha : Complete "a.c,2\r\n" := .inr (by decide)
  obtain ⟨hparse, -, htext⟩ := parse_append "a.c,2\r\n" "b.c\na.c,1" ha
  have hboth : parse ("a.c,2\r\n" ++ "b.c\na.c,1") = .ok ⟨[⟨"a.c", .ofList [1, 2]⟩, ⟨"b.c", .ofList []⟩]⟩ := by
    have hfirst : parse "a.c,2\r\n" = .ok ⟨[⟨"a.c", .ofList [2]⟩]⟩ := by rfl
    have hsecond : parse "b.c\na.c,1" = .ok ⟨[⟨"b.c", .ofList []⟩, ⟨"a.c", .ofList [1]⟩]⟩ := by rfl
    rw [hparse, hfirst, hsecond]
    decide
  refine ⟨ha, hboth, (htext slicer files c (.start ()) () rfl rfl rfl rfl rfl).trans ?_⟩
  rw [selectionOf, hboth]
  rfl

end Report
end SourceSlice
