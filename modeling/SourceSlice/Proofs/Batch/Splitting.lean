import SourceSlice.Proofs.Batch.Faults
import SourceSlice.Proofs.Batch.Rows
/-!
# Splitting a batch

Collecting goes on where it stopped, so rows may be sliced in two batches, the second from the session that the first
has left (`collect_append`).  Only the labels are looked at over the whole batch: where each part is consistent, the
whole is when the parts fit together (`labelsConsistent_append_iff`), and where the second is not, neither is the whole.
-/
namespace SourceSlice

variable {σ : Type}

namespace BatchOutput

variable {o o' : BatchOutput}

def append (o o' : BatchOutput) : BatchOutput := ⟨o.codeSlices ++ o'.codeSlices, o.labels ++ o'.labels⟩

theorem ofResults_append (rs rs' : List SliceResult) :
    ofResults (rs ++ rs') = (ofResults rs).append (ofResults rs') := by
  simp [ofResults, append]

def Fits (o o' : BatchOutput) : Prop := o.codeSlices = [] ∨ o'.codeSlices = [] ∨ (o.labels = [] ↔ o'.labels = [])

instance : Decidable (Fits o o') := inferInstanceAs (Decidable (_ ∨ _ ∨ _))

theorem labelsConsistent_iff :
    o.labelsConsistent = true ↔ o.labels.length = 0 ∨ o.labels.length = o.codeSlices.length := by
  simp [labelsConsistent]

theorem length_labels_ofResults_le (rs : List SliceResult) :
    (ofResults rs).labels.length ≤ (ofResults rs).codeSlices.length := by
  simpa [ofResults] using List.length_filterMap_le _ rs

theorem labelsConsistent_append_iff (h : o.labelsConsistent = true) (h' : o'.labelsConsistent = true) :
    (o.append o').labelsConsistent = true ↔ o.Fits o' := by
  rw [labelsConsistent_iff] at h h'
  simp only [labelsConsistent_iff, Fits, append, List.length_append, ← List.length_eq_zero_iff]
  omega

theorem labelsConsistent_of_append (h : o.labelsConsistent = true) (hle : o'.labels.length ≤ o'.codeSlices.length)
    (happend : (o.append o').labelsConsistent = true) : o'.labelsConsistent = true := by
  rw [labelsConsistent_iff] at h happend ⊢
  simp only [append, List.length_append] at happend
  omega

end BatchOutput

namespace Slicer

variable {slicer : Slicer σ} {files : FileSystem} {rows rows' : List Row} {s t u : Session σ} {o o' : BatchOutput}
  {results : List SliceResult} {e : SliceError}

theorem collect_append (slicer : Slicer σ) (files : FileSystem) (rows' : List Row) : ∀ rows : List Row,
    slicer.collect files (rows ++ rows') = (do
      let results ← slicer.collect files rows
      let results' ← slicer.collect files rows'
      return results ++ results')
  | [] => by simp [collect]
  | row :: rest => by
    have ih := collect_append slicer files rows' rest
    rw [List.cons_append, collect, collect]
    cases row.criterion? files with
    | none => exact ih
    | some c => simp [ih]

theorem runRows_of_collect (h : slicer.collect files rows s = .ok results t) :
    slicer.runRows files rows s = if (BatchOutput.ofResults results).labelsConsistent
      then .ok (.ofResults results) t
      else .error (.labelCountMismatch (BatchOutput.ofResults results).codeSlices.length
        (BatchOutput.ofResults results).labels.length) t := by
  rw [runRows, Work.bind_of_ok h, checkLabels]
  split <;> rfl

theorem collect_of_runRows (h : slicer.runRows files rows s = .ok o t) :
    ∃ results, slicer.collect files rows s = .ok results t ∧ o = .ofResults results ∧ o.labelsConsistent = true := by
  cases hcollect : slicer.collect files rows s with
  | error e u => rw [runRows, Work.bind_of_error hcollect] at h; cases h
  | ok results u =>
    rw [runRows_of_collect hcollect] at h
    split at h
    next hlabels => cases h; exact ⟨results, rfl, rfl, hlabels⟩
    next => cases h

theorem collect_ne_labelCountMismatch (hengine : slicer.engine.OwnFailures)
    (h : slicer.collect files rows s = .error e t) (slices labels : Nat) : e ≠ .labelCountMismatch slices labels := by
  rintro rfl
  cases (failsAs_collect slicer files rows s).of_error h with
  | engine hr => cases hengine _ _ _ hr

/-- **Rows may be sliced in two batches.**  When the first batch succeeds, both together make the calls and keep the
answers of one batch after the other.  The results are put together when their labels fit; otherwise, and when those of
the second batch do not match, the slices and the labels of both are counted; any other failure is the second's. -/
theorem runRows_append (hengine : slicer.engine.OwnFailures) (rows' : List Row)
    (h : slicer.runRows files rows s = .ok o t) :
    slicer.runRows files (rows ++ rows') s = match slicer.runRows files rows' t with
      | .ok o' u =>
        if o.Fits o' then .ok ⟨o.codeSlices ++ o'.codeSlices, o.labels ++ o'.labels⟩ u
        else .error (.labelCountMismatch (o.codeSlices.length + o'.codeSlices.length)
          (o.labels.length + o'.labels.length)) u
      | .error (.labelCountMismatch slices labels) u =>
        .error (.labelCountMismatch (o.codeSlices.length + slices) (o.labels.length + labels)) u
      | .error e u => .error e u := by
  obtain ⟨results, hfirst, rfl, hlabels⟩ := collect_of_runRows h
  have hboth : slicer.collect files (rows ++ rows') s = (do
      let results' ← slicer.collect files rows'
      return results ++ results' : Slicing σ (List SliceResult)) t := by
    rw [collect_append, Work.bind_of_ok hfirst]
  cases hsecond : slicer.collect files rows' t with
  | error e u =>
    have hfailed : slicer.collect files (rows ++ rows') s = .error e u := hboth.trans (Work.bind_of_error hsecond)
    rw [runRows, Work.bind_of_error hfailed, runRows, Work.bind_of_error hsecond]
    split
    next heq => cases heq
    next heq => cases heq; exact absurd rfl (collect_ne_labelCountMismatch hengine hsecond _ _)
    next heq => cases heq; rfl
  | ok results' u =>
    have hdone : slicer.collect files (rows ++ rows') s = .ok (results ++ results') u :=
      hboth.trans (Work.bind_of_ok hsecond)
    rw [runRows_of_collect hdone, runRows_of_collect hsecond, BatchOutput.ofResults_append]
    by_cases hlabels' : (BatchOutput.ofResults results').labelsConsistent = true
    · simp only [if_pos hlabels', BatchOutput.labelsConsistent_append_iff hlabels hlabels']
      simp [BatchOutput.append]
    · -- labels that match the slices, or none at all, cannot make up for a second part where only some have one
      have hnot := mt (BatchOutput.labelsConsistent_of_append hlabels
        (BatchOutput.length_labels_ofResults_le results')) hlabels'
      simp only [if_neg hlabels', if_neg hnot]
      simp [BatchOutput.append]

/-- A row with a label, and after it one without, or both kinds: all are answered by what was kept for the first. -/
theorem runRows_append_mixed_labels :
    let files : FileSystem := ⟨[(["a.c"], .file (.bytes "x\ny\n".toUTF8) false)], []⟩
    let slicer : Slicer Unit := ⟨.printing fun _ => "a.c,2\n", ⟨"a.bc"⟩, .backward, ⟨false⟩⟩
    let row (label : Option String) : Row := ⟨"a.c", "1", "v", "main", label⟩
    slicer.engine.OwnFailures ∧ ∃ t, slicer.runRows files [row (some "l")] (.start ()) = .ok ⟨["y\n"], ["l"]⟩ t ∧
      slicer.runRows files ([row (some "l")] ++ [row none]) (.start ()) = .error (.labelCountMismatch 2 1) t ∧
      slicer.runRows files ([row (some "l")] ++ [row none, row (some "m")]) (.start ())
        = .error (.labelCountMismatch 3 2) t := by
  intro files slicer row
  let c : Criterion := { file := ⟨"a.c"⟩, line := ⟨1, by decide⟩, varname := "v", entryPoint := "main" }
  let second : Selection := ⟨[⟨"a.c", .ofList [2]⟩]⟩
  let t : Session Unit := ⟨(), [⟨slicer.request c, .ok "a.c,2\n"⟩], [(c.slot, second)]⟩
  have hengine : slicer.engine.OwnFailures := by
    intro r s e h
    cases h
  have htext : second.excerpt files = .ok "y\n" := by rfl
  have hfirst : slicer.selection c (.start ()) = .ok second t :=
    ask_of_outcome_ok rfl ((outcome_callFor_printing rfl _ _).trans (by rfl))
  have hagain : slicer.sliceText files c t = .ok "y\n" t := sliceText_of_selection (ask_of_kept (if_pos rfl)) htext
  have hrow (label : Option String) : (row label).criterion? files = some c := by
    change (row none).criterion? files = some c
    decide
  have hone : slicer.runRows files [row (some "l")] (.start ()) = .ok ⟨["y\n"], ["l"]⟩ t :=
    (Slices.cons (hrow _) (sliceText_of_selection hfirst htext) (.nil t)).runRows_eq
  have hnone : slicer.runRows files [row none] t = .ok ⟨["y\n"], []⟩ t :=
    (Slices.cons (hrow _) hagain (.nil t)).runRows_eq
  have hmixed : slicer.runRows files [row none, row (some "m")] t = .error (.labelCountMismatch 2 1) t :=
    (Slices.cons (hrow _) hagain (.cons (hrow _) hagain (.nil t))).runRows_eq
  refine ⟨hengine, t, hone, ?_, ?_⟩
  · rw [runRows_append hengine _ hone, hnone]
    rfl
  · rw [runRows_append hengine _ hone, hmixed]
    rfl

end Slicer
end SourceSlice
