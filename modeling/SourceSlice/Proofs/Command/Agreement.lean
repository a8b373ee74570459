import SourceSlice.Proofs.Command.Persistence
import SourceSlice.Proofs.Results.Ledger
/-!
# The three records of a run agree

A run that succeeds returns an output, writes it to a file and records it in the results database.  Where only this
program wrote the database (`Database.Written`), it is that of a ledger (`Written.cases`), and then the output file and
the last run of the database both hold what was returned (`slice_agrees`).
-/
namespace SourceSlice

namespace Database

variable {d new : Database}

inductive Written : Database → Prop where
  | blank : Written .blank
  | opened {d new : Database} : Written d → d.migrate = .ok new → Written new
  | recorded {d new : Database} {run : NewRun} {output : BatchOutput} {id : Int64} :
      Written d → d.insertRun run output = .ok (id, new) → Written new

theorem Written.cases (h : d.Written) : d = .blank ∨ ∃ ledger : Ledger, ledger.Ordered ∧ d = ledger.database := by
  induction h with
  | blank => exact .inl rfl
  | opened _ hmigrate ih =>
    rcases ih with rfl | ⟨ledger, hordered, rfl⟩
    · rw [Ledger.migrate_blank] at hmigrate
      exact .inr ⟨[], Ledger.ordered_nil, (Except.ok.inj hmigrate).symm⟩
    · rw [Ledger.migrate_database] at hmigrate
      exact .inr ⟨ledger, hordered, (Except.ok.inj hmigrate).symm⟩
  | recorded _ hinsert ih =>
    rcases ih with rfl | ⟨ledger, hordered, rfl⟩
    · exact absurd rfl (ne_blank_of_insertRun hinsert)
    · obtain ⟨hnew, hordered', -⟩ := Ledger.insertRun_database hordered hinsert
      exact .inr ⟨_, hordered', hnew⟩

theorem Written.sound (h : d.Written) : d.Sound := by
  rcases h.cases with rfl | ⟨ledger, hordered, rfl⟩
  · exact ⟨nofun, .nil, .nil⟩
  · exact hordered.sound

theorem Written.of_migrate (h : d.Written) (hmigrate : d.migrate = .ok new) :
    ∃ ledger : Ledger, ledger.Ordered ∧ new = ledger.database := by
  rcases (h.opened hmigrate).cases with rfl | hledger
  · -- Opening makes the tables, so nothing is blank after it.
    rcases h.cases with rfl | ⟨ledger, -, rfl⟩
    · cases hmigrate
    · cases hmigrate
  · exact hledger

/-- **One run more**: it is the last that is listed, under an id of its own, and the other ids give what they gave. -/
structure OneMore (before : Database) (r : RunRecord) (output : BatchOutput) (after : Database) : Prop where
  listed : ∃ runs, before.listRuns = .ok runs ∧ after.listRuns = .ok (runs ++ [r]) ∧ ∀ run ∈ runs, run.id ≠ r.id
  gotten : after.getRun r.id = .ok r
  loaded : after.loadOutput r.id = .ok output
  others : ∀ id, id ≠ r.id → after.getRun id = before.getRun id ∧ after.loadOutput id = before.loadOutput id

end Database

namespace Plan

/-- **A run whose files are where they should be**: the output file is none of the database's, and of the database all is
known. -/
structure Placed (p : Plan) (files : FileSystem) : Prop where
  apart : p.Apart files
  known : ∀ l, p.home? files = some l → files.Known l

instance (p : Plan) (files : FileSystem) : Decidable (p.Placed files) :=
  decidable_of_iff (p.Apart files ∧ ∀ l ∈ p.home? files, files.Known l)
    ⟨fun h => ⟨h.1, h.2⟩, fun h => ⟨h.apart, h.known⟩⟩

end Plan

namespace Ledger

variable {l : Ledger} {r : Recorded} {id : Int64}

theorem find?_append_of_ne (hid : id ≠ r.id) : (l ++ [r]).find? (·.id = id) = l.find? (·.id = id) := by
  rw [List.find?_append, List.find?_cons_of_neg (by simpa using hid.symm), List.find?_nil, Option.or_none]

theorem oneMore_database (h : Ordered l) (h' : Ordered (l ++ [r])) :
    l.database.OneMore r.record r.loaded (database (l ++ [r])) where
  listed := by
    refine ⟨l.list, listRuns_database h, ?_, fun run hrun hid => ?_⟩
    · rw [listRuns_database h', list, list, List.map_append]
      rfl
    · obtain ⟨x, hx, rfl⟩ := List.mem_map.1 hrun
      have hlt : x.id < r.id := (List.pairwise_append.1 h'.ascending).2.2 x hx r (List.mem_singleton.2 rfl)
      have hsame : x.id = r.id := hid
      exact Int64.lt_irrefl (hsame ▸ hlt)
  gotten := by
    rw [getRun_database]
    exact h'.get_eq (List.mem_append_right l (List.mem_singleton.2 rfl))
  loaded := by
    rw [loadOutput_database h']
    exact h'.load_eq (List.mem_append_right l (List.mem_singleton.2 rfl))
  others id hid := by
    have hfind := @find?_append_of_ne l r id hid
    rw [getRun_database, getRun_database, loadOutput_database h, loadOutput_database h', get, get, load, load, hfind]
    exact ⟨rfl, rfl⟩

end Ledger

theorem BatchOutput.length_labels_le {o : BatchOutput} (h : o.labelsConsistent) :
    o.labels.length ≤ o.codeSlices.length := by
  rw [labelsConsistent, Bool.or_eq_true, beq_iff_eq, List.isEmpty_iff] at h
  rcases h with h | h
  · rw [h]; exact Nat.zero_le _
  · exact h.le

namespace Command

variable {σ : Type} {around : Surroundings σ} {o : SliceOptions} {p : Plan} {w after : World σ} {l : Location}
  {output : BatchOutput}

theorem mode_of_planned? {files : FileSystem} {engineVariable : Option String}
    (h : o.planned? files engineVariable = some p) : p.mode = .ofFlags o.forward o.bidirectional := by
  unfold SliceOptions.planned? at h
  split at h
  next settings _ =>
    unfold SliceOptions.plan at h
    cases hinput : BatchInput.choose o.table o.criterion (some (o.entry.getD settings.defaultEntry)) with
    | error e => rw [hinput] at h; cases h
    | ok input => rw [hinput] at h; cases h; rfl
  next => cases h

theorem Records.oneMore {before after : FileSystem} (h : Records p l output before after)
    (hwritten : (before.databaseAt l).Written) (hlabels : output.labelsConsistent) :
    ∃ d r, (before.databaseAt l).migrate = .ok d ∧ (after.databaseAt l).migrate = .ok (after.databaseAt l) ∧
      d.OneMore r output (after.databaseAt l) ∧ r.artifact = p.artifact.text ∧ r.mode = p.mode ∧
      r.sliceCount.toNat = output.codeSlices.length ∧ (r.labelled = true ↔ output.labels ≠ []) := by
  obtain ⟨d, id, run, hmigrate, hinsert, hartifact, hmode⟩ := h
  obtain ⟨ledger, hordered, rfl⟩ := hwritten.of_migrate hmigrate
  obtain ⟨hafter, hordered', -⟩ := Ledger.insertRun_database hordered hinsert
  let r : Recorded := ⟨id, run, output⟩
  -- The tables have no room for labels beyond the slices; there are none.
  have hloaded : r.loaded = output := r.loaded_of_le (BatchOutput.length_labels_le hlabels)
  have hmore := Ledger.oneMore_database hordered hordered'
  rw [hloaded] at hmore
  rw [hafter]
  have hfits : r.Fits := hordered'.fits r (List.mem_append_right _ (List.mem_singleton.2 rfl))
  exact ⟨_, r.record, hmigrate, Ledger.migrate_database _, hmore, hartifact, hmode, hfits.toNat_sliceCount,
    r.labelled_record⟩

/-- **What a run returns, the output file and the results database agree**, in a database that only this program has
written. -/
theorem slice_agrees (hplan : o.planned? w.files around.engineVariable = some p) (hprint : p.print = false)
    (hhome : p.home? w.files = some l) (hrooted : w.files.Rooted) (hplaced : p.Placed w.files)
    (hwritten : (w.files.databaseAt l).Written) (hok : slice around o w = .ok output after) :
    BatchOutput.read after.files p.output = .ok output ∧
      ∃ before now r, (w.files.databaseAt l).migrate = .ok before ∧ (after.files.databaseAt l).migrate = .ok now ∧
        before.OneMore r output now ∧ r.mode = .ofFlags o.forward o.bidirectional ∧
        r.sliceCount.toNat = output.codeSlices.length ∧ (r.labelled = true ↔ output.labels ≠ []) := by
  rw [slice_of_planned hplan] at hok
  have hout := (@execute_ends σ around p (w.warned o.warnings) hrooted hplaced.apart).of_ok hok
  obtain ⟨before, r, hbefore, hnow, hmore, -, hmode, hcount, hlabelled⟩ :=
    (hout.records l hhome).oneMore hwritten hout.labels
  exact ⟨hout.leaves.written hprint, before, _, r, hbefore, hnow, hmore, hmode.trans (mode_of_planned? hplan), hcount,
    hlabelled⟩

def earlierRun : Recorded := ⟨1, ⟨"prog.bc", none, .bidirectional, "0", "1"⟩, ⟨["int u;\n"], ["u"]⟩⟩

def afterEarlierRun : World Unit :=
  oneSource [(["runs.db"], .file (.database (Ledger.database [earlierRun])) false)]

def recordedPlan : Plan :=
  { artifact := ⟨"prog.bc"⟩, input := .adHoc "a.c##1#&v" "main", mode := .backward,
    engine := ⟨"llvm-src-slicer"⟩, options := ⟨false⟩, print := false, output := ⟨"out.json"⟩, db := some ⟨"runs.db"⟩ }

theorem written_earlierRun : (afterEarlierRun.files.databaseAt ["runs.db"]).Written := by
  have hinsert : (Ledger.database []).insertRun earlierRun.run earlierRun.output
      = .ok (1, Ledger.database [earlierRun]) := rfl
  exact .recorded (.opened .blank Ledger.migrate_blank) hinsert

theorem slice_agrees_after_earlier_run :
    recordedOptions.planned? afterEarlierRun.files none = some recordedPlan ∧ recordedPlan.print = false ∧
      recordedPlan.home? afterEarlierRun.files = some ["runs.db"] ∧ afterEarlierRun.files.Rooted ∧
      recordedPlan.Placed afterEarlierRun.files ∧ (afterEarlierRun.files.databaseAt ["runs.db"]).Written ∧
      ∃ after, slice reportingLineOne recordedOptions afterEarlierRun = .ok ⟨["int v;\n"], []⟩ after ∧
        BatchOutput.read after.files ⟨"out.json"⟩ = .ok ⟨["int v;\n"], []⟩ ∧
        ∃ before now r, Database.OneMore before r ⟨["int v;\n"], []⟩ now ∧ r.mode = .backward ∧ r.labelled = false := by
  have hplan : recordedOptions.planned? afterEarlierRun.files none = some recordedPlan := by decide +kernel
  have hhome : recordedPlan.home? afterEarlierRun.files = some ["runs.db"] := by decide +kernel
  have hrooted : afterEarlierRun.files.Rooted := by decide +kernel
  have hplaced : recordedPlan.Placed afterEarlierRun.files := by decide +kernel
  have hend : (match slice reportingLineOne recordedOptions afterEarlierRun with
    | .ok output _ => some output
    | .error .. => none) = some ⟨["int v;\n"], []⟩ := by decide +kernel
  refine ⟨hplan, rfl, hhome, hrooted, hplaced, written_earlierRun, ?_⟩
  cases hok : slice reportingLineOne recordedOptions afterEarlierRun with
  | error f after => rw [hok] at hend; cases hend
  | ok output after =>
    rw [hok] at hend
    obtain rfl := Option.some.inj hend
    obtain ⟨hread, before, now, r, -, -, hmore, hmode, -, hlabelled⟩ :=
      slice_agrees hplan rfl hhome hrooted hplaced written_earlierRun hok
    refine ⟨after, rfl, hread, before, now, r, hmore, hmode, ?_⟩
    rw [← Bool.not_eq_true, hlabelled]
    exact fun hne => hne rfl

end Command
end SourceSlice
