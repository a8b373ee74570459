import SourceSlice.Proofs.Batch.Session
/-!
# Rows, slices and labels

What slicing rows comes to (`runRows_outcome`).  Rows that are no criteria count for nothing.  Of the others, all are
sliced and the labels match the slices by position, or some but not all have a label and the batch is refused, or the
first that cannot be sliced ends the batch.
-/
namespace SourceSlice

variable {σ : Type}

def validRows (files : FileSystem) (rows : List Row) : List Row := rows.filter fun row => (row.criterion? files).isSome

def labelled (rows : List Row) : Nat := rows.countP (·.label.isSome)

namespace Slicer

variable {slicer : Slicer σ} {files : FileSystem} {rows before after : List Row} {row : Row} {c : Criterion}
  {texts : List String} {text : String} {e : SliceError} {s t u : Session σ}

/-- **Rows sliced in order, all with success**: the session before, the rows, the text of each, the session after. -/
inductive Slices (slicer : Slicer σ) (files : FileSystem) : Session σ → List Row → List String → Session σ → Prop
  | nil (s : Session σ) : Slices slicer files s [] [] s
  | cons {s t u : Session σ} {row : Row} {rest : List Row} {c : Criterion} {text : String} {texts : List String} :
      row.criterion? files = some c → slicer.sliceText files c s = .ok text t → Slices slicer files t rest texts u →
      Slices slicer files s (row :: rest) (text :: texts) u

/-- **The first row that cannot be sliced** fails with `e` and leaves the session `u`; all rows before it are sliced. -/
def FailsFirst (slicer : Slicer σ) (files : FileSystem) (s : Session σ) (rows : List Row) (e : SliceError)
    (u : Session σ) : Prop :=
  ∃ before row after texts t c, rows = before ++ row :: after ∧ slicer.Slices files s before texts t ∧
    row.criterion? files = some c ∧ slicer.sliceText files c t = .error e u

def resultsOf (rows : List Row) (texts : List String) : List SliceResult :=
  List.zipWith (fun row text => ⟨text, row.label⟩) rows texts

theorem collect_cons_of_none (h : row.criterion? files = none) (rest : List Row) :
    slicer.collect files (row :: rest) = slicer.collect files rest := by
  rw [collect, h]

theorem collect_cons_of_ok {rest : List Row} (h : row.criterion? files = some c)
    (htext : slicer.sliceText files c s = .ok text t) :
    slicer.collect files (row :: rest) s
      = (do return ⟨text, row.label⟩ :: (← slicer.collect files rest) : Slicing σ (List SliceResult)) t := by
  rw [collect, h]
  exact Work.bind_of_ok htext

theorem collect_cons_of_error {rest : List Row} (h : row.criterion? files = some c)
    (htext : slicer.sliceText files c s = .error e t) : slicer.collect files (row :: rest) s = .error e t := by
  rw [collect, h]
  exact Work.bind_of_error htext

/-- **Rows that are no criteria change nothing**, neither the slices nor the session. -/
theorem collect_validRows (slicer : Slicer σ) (files : FileSystem) : ∀ rows : List Row,
    slicer.collect files (validRows files rows) = slicer.collect files rows
  | [] => rfl
  | row :: rest => by
    have ih := collect_validRows slicer files rest
    rw [validRows] at ih ⊢
    cases h : row.criterion? files with
    | none => rw [List.filter_cons_of_neg (by simp [h]), ih, collect_cons_of_none h]
    | some c => rw [List.filter_cons_of_pos (by simp [h]), collect, collect, h, ih]

theorem Slices.length_eq (h : slicer.Slices files s rows texts t) : texts.length = rows.length := by
  induction h with
  | nil => rfl
  | cons _ _ _ ih => rw [List.length_cons, List.length_cons, ih]

theorem Slices.collect_eq (h : slicer.Slices files s rows texts t) :
    slicer.collect files rows s = .ok (resultsOf rows texts) t := by
  induction h with
  | nil => rfl
  | cons hc htext _ ih =>
    rw [collect_cons_of_ok hc htext, Work.bind_of_ok ih]
    rfl

theorem FailsFirst.collect_eq (h : slicer.FailsFirst files s rows e u) : slicer.collect files rows s = .error e u := by
  obtain ⟨before, row, after, texts, t, c, rfl, hbefore, hc, htext⟩ := h
  -- over the rows before the failing one; those after it are never looked at
  induction hbefore with
  | nil => exact collect_cons_of_error hc htext
  | cons hc' htext' _ ih =>
    rw [List.cons_append, collect_cons_of_ok hc' htext', Work.bind_of_error (ih htext)]

theorem slices_or_failsFirst (slicer : Slicer σ) (files : FileSystem) : ∀ (rows : List Row) (s : Session σ),
    (∀ row ∈ rows, (row.criterion? files).isSome) →
    (∃ texts t, slicer.Slices files s rows texts t) ∨ ∃ e u, slicer.FailsFirst files s rows e u
  | [], s, _ => .inl ⟨[], s, .nil s⟩
  | row :: rest, s, h => by
    obtain ⟨c, hc⟩ := Option.isSome_iff_exists.1 (h row List.mem_cons_self)
    cases htext : slicer.sliceText files c s with
    | error e u => exact .inr ⟨e, u, [], row, rest, [], s, c, rfl, .nil s, hc, htext⟩
    | ok text t =>
      rcases slices_or_failsFirst slicer files rest t (fun r hr => h r (List.mem_cons_of_mem _ hr)) with
        ⟨texts, u, hrest⟩ | ⟨e, u, before, failed, after, texts, v, b, rfl, hbefore, hb, hfail⟩
      · exact .inl ⟨text :: texts, u, .cons hc htext hrest⟩
      · exact .inr ⟨e, u, row :: before, failed, after, text :: texts, v, b, rfl, .cons hc htext hbefore, hb, hfail⟩

theorem map_text_resultsOf : ∀ {rows : List Row} {texts : List String}, texts.length = rows.length →
    (resultsOf rows texts).map (·.text) = texts
  | [], [], _ => rfl
  | row :: rows, text :: texts, h => by
    have hlen : texts.length = rows.length := by simpa using h
    rw [resultsOf, List.zipWith_cons_cons, List.map_cons, ← resultsOf, map_text_resultsOf hlen]

theorem filterMap_label_resultsOf : ∀ {rows : List Row} {texts : List String}, texts.length = rows.length →
    (resultsOf rows texts).filterMap (·.label) = rows.filterMap (·.label)
  | [], [], _ => rfl
  | row :: rows, text :: texts, h => by
    have hlen : texts.length = rows.length := by simpa using h
    rw [resultsOf, List.zipWith_cons_cons, List.filterMap_cons, List.filterMap_cons, ← resultsOf,
      filterMap_label_resultsOf hlen]

theorem Slices.ofResults_eq (h : slicer.Slices files s rows texts t) :
    BatchOutput.ofResults (resultsOf rows texts) = ⟨texts, rows.filterMap (·.label)⟩ := by
  rw [BatchOutput.ofResults, map_text_resultsOf h.length_eq, filterMap_label_resultsOf h.length_eq]

theorem length_filterMap_label (rows : List Row) : (rows.filterMap (·.label)).length = labelled rows :=
  List.length_filterMap_eq_countP

theorem filterMap_label_of_labelled_eq_zero (h : labelled rows = 0) : rows.filterMap (·.label) = [] :=
  List.eq_nil_of_length_eq_zero ((length_filterMap_label rows).trans h)

theorem map_some_filterMap_label : ∀ {rows : List Row}, labelled rows = rows.length →
    (rows.filterMap (·.label)).map some = rows.map (·.label)
  | [], _ => rfl
  | row :: rows, h => by
    obtain ⟨label, hl⟩ := Option.isSome_iff_exists.1 (List.countP_eq_length.1 h row List.mem_cons_self)
    have hrows : labelled rows = rows.length :=
      List.countP_eq_length.2 fun r hr => List.countP_eq_length.1 h r (List.mem_cons_of_mem _ hr)
    rw [List.filterMap_cons_some hl, List.map_cons, List.map_cons, map_some_filterMap_label hrows, hl]

theorem Slices.runRows_eq (h : slicer.Slices files s rows texts t) :
    slicer.runRows files rows s = if labelled rows = 0 ∨ labelled rows = rows.length
      then .ok ⟨texts, rows.filterMap (·.label)⟩ t
      else .error (.labelCountMismatch rows.length (labelled rows)) t := by
  have hconsistent : (⟨texts, rows.filterMap (·.label)⟩ : BatchOutput).labelsConsistent = true ↔
      labelled rows = 0 ∨ labelled rows = rows.length := by
    rw [BatchOutput.labelsConsistent, Bool.or_eq_true, List.isEmpty_iff_length_eq_zero, beq_iff_eq,
      length_filterMap_label, h.length_eq]
  rw [runRows, Work.bind_of_ok h.collect_eq, h.ofResults_eq, checkLabels]
  split
  next hok => rw [if_pos (hconsistent.1 hok)]; rfl
  next hno => rw [if_neg (fun hl => hno (hconsistent.2 hl)), h.length_eq, length_filterMap_label]; rfl

theorem runRows_validRows (slicer : Slicer σ) (files : FileSystem) (rows : List Row) :
    slicer.runRows files (validRows files rows) = slicer.runRows files rows := by
  rw [runRows, collect_validRows, runRows]

/-- **What slicing rows comes to.**  Only the valid rows count.  When all of them are sliced, the slices are their
texts in their order; the labels are none when no row has one, stand in the places of their rows when all have one,
and else the batch is refused.  Otherwise it ends with the first row that fails.  One of the two is the case. -/
theorem runRows_outcome (slicer : Slicer σ) (files : FileSystem) (rows : List Row) (s : Session σ) :
    let valid := validRows files rows
    slicer.runRows files rows s = slicer.runRows files valid s ∧
    (∀ texts t, slicer.Slices files s valid texts t →
      texts.length = valid.length ∧
      (labelled valid = 0 → slicer.runRows files rows s = .ok ⟨texts, []⟩ t) ∧
      (labelled valid = valid.length → ∃ labels, slicer.runRows files rows s = .ok ⟨texts, labels⟩ t ∧
        labels.map some = valid.map (·.label)) ∧
      (0 < labelled valid → labelled valid < valid.length →
        slicer.runRows files rows s = .error (.labelCountMismatch valid.length (labelled valid)) t)) ∧
    (∀ e u, slicer.FailsFirst files s valid e u → slicer.runRows files rows s = .error e u) ∧
    ((∃ texts t, slicer.Slices files s valid texts t) ∨ ∃ e u, slicer.FailsFirst files s valid e u) := by
  intro valid
  have hvalid : slicer.runRows files rows s = slicer.runRows files valid s :=
    congrFun (runRows_validRows slicer files rows).symm s
  refine ⟨hvalid, fun texts t h => ⟨h.length_eq, fun hl => ?_, fun hl => ?_, fun hpos hlt => ?_⟩, fun e u h => ?_, ?_⟩
  · rw [hvalid, h.runRows_eq, if_pos (.inl hl), filterMap_label_of_labelled_eq_zero hl]
  · refine ⟨valid.filterMap (·.label), ?_, map_some_filterMap_label hl⟩
    rw [hvalid, h.runRows_eq, if_pos (.inr hl)]
  · rw [hvalid, h.runRows_eq, if_neg (by omega)]
  · rw [hvalid, runRows]
    exact Work.bind_of_error h.collect_eq
  · exact slices_or_failsFirst slicer files valid s fun row hrow => (List.mem_filter.1 hrow).2

/-- Of three rows the first names no file, the second has a label, and the third, which is answered by what was kept
for the second, has none. -/
theorem runRows_outcome_one_label :
    let files : FileSystem := ⟨[(["a.c"], .file (.bytes "x\ny\n".toUTF8) false)], []⟩
    let slicer : Slicer Unit := ⟨.printing fun _ => "a.c,2\n", ⟨"a.bc"⟩, .backward, ⟨false⟩⟩
    let rows : List Row := [⟨"gone.c", "1", "v", "main", some "l"⟩, ⟨"a.c", "1", "v", "main", some "m"⟩,
      ⟨"a.c", "1", "v", "main", none⟩]
    ∃ t, slicer.Slices files (.start ()) (validRows files rows) ["y\n", "y\n"] t ∧ t.calls.length = 1 ∧
      slicer.runRows files rows (.start ()) = .error (.labelCountMismatch 2 1) t := by
  intro files slicer rows
  let c : Criterion := { file := ⟨"a.c"⟩, line := ⟨1, by decide⟩, varname := "v", entryPoint := "main" }
  let second : Selection := ⟨[⟨"a.c", .ofList [2]⟩]⟩
  let t : Session Unit := ⟨(), [⟨slicer.request c, .ok "a.c,2\n"⟩], [(c.slot, second)]⟩
  have hslices : slicer.Slices files (.start ()) (validRows files rows) ["y\n", "y\n"] t := by
    have hvalid : validRows files rows = [⟨"a.c", "1", "v", "main", some "m"⟩, ⟨"a.c", "1", "v", "main", none⟩] := by
      decide
    have htext : second.excerpt files = .ok "y\n" := by rfl
    have hfirst : slicer.selection c (.start ()) = .ok second t :=
      ask_of_outcome_ok rfl ((outcome_callFor_printing rfl _ _).trans (by rfl))
    have hagain : slicer.selection c t = .ok second t := ask_of_kept (if_pos rfl)
    rw [hvalid]
    exact .cons (by decide) (sliceText_of_selection hfirst htext)
      (.cons (by decide) (sliceText_of_selection hagain htext) (.nil t))
  refine ⟨t, hslices, rfl, ?_⟩
  exact ((runRows_outcome slicer files rows (.start ())).2.1 _ _ hslices).2.2.2 (by decide) (by decide)

end Slicer
end SourceSlice
