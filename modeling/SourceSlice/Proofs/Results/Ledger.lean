import SourceSlice.Proofs.Results.Transactions
/-!
# The ledger of a results database

A `Ledger` lists the runs that were recorded, each with its id and its output, and `Ledger.database` has them in its two
tables.  In an ordered ledger ids ascend; then the tables are read back as the list says (`listRuns_database`,
`getRun_database`, `loadOutput_database`), and recording a run adds it at the end of the list or changes nothing
(`insertRun_database`).
-/
namespace SourceSlice

structure Recorded where
  id : Int64
  run : NewRun
  output : BatchOutput
deriving DecidableEq, Repr

namespace Recorded

def record (r : Recorded) : RunRecord :=
  ⟨r.id, r.run.artifact, r.run.artifactHash, r.run.mode, r.run.startedAt, r.run.finishedAt,
    UInt64.ofNat r.output.codeSlices.length, !r.output.labels.isEmpty⟩

/-- The output as it is read back: there is no row for a label without a slice. -/
def loaded (r : Recorded) : BatchOutput := ⟨r.output.codeSlices, r.output.labels.take r.output.codeSlices.length⟩

def Fits (r : Recorded) : Prop := (r.output.codeSlices.length : Int) ≤ Int64.maxValue.toInt

theorem Fits.length_le {r : Recorded} (h : r.Fits) : r.output.codeSlices.length ≤ 9223372036854775807 := by
  have hmax : Int64.maxValue.toInt = 9223372036854775807 := by decide
  rw [Fits, hmax] at h
  omega

theorem Fits.toNat_sliceCount {r : Recorded} (h : r.Fits) :
    r.record.sliceCount.toNat = r.output.codeSlices.length := by
  have hle := h.length_le
  exact UInt64.toNat_ofNat_of_lt' (by change _ < 2 ^ 64; omega)

theorem labelled_record (r : Recorded) : r.record.labelled = true ↔ r.output.labels ≠ [] := by
  cases h : r.output.labels <;> simp [record, h]

theorem loaded_of_le {r : Recorded} (h : r.output.labels.length ≤ r.output.codeSlices.length) :
    r.loaded = r.output := by
  rw [loaded, List.take_of_length_le h]

end Recorded

namespace Database

variable {d new : Database} {id : Int64}

theorem le_foldl_max : ∀ {rows : List RunRow} {m : Int}, m ≤ rows.foldl (fun m r => max m r.id.toInt) m ∧
    ∀ r ∈ rows, r.id.toInt ≤ rows.foldl (fun m r => max m r.id.toInt) m
  | [], m => ⟨Int.le_refl m, nofun⟩
  | row :: rest, m => by
    obtain ⟨hstart, hrest⟩ := @le_foldl_max rest (max m row.id.toInt)
    rw [List.foldl_cons]
    exact ⟨Int.le_trans (Int.le_max_left _ _) hstart,
      List.forall_mem_cons.2 ⟨Int.le_trans (Int.le_max_right _ _) hstart, hrest⟩⟩

theorem toInt_nextId? (h : d.nextId? = some id) : id.toInt = d.greatestId + 1 ∧ ∀ r ∈ d.runRows, r.id < id := by
  obtain ⟨hlast, hrows⟩ := @le_foldl_max d.runRows d.lastId.toInt
  have hlow := d.lastId.le_toInt
  have hmax : Int64.maxValue.toInt = 2 ^ 63 - 1 := by decide
  change d.lastId.toInt ≤ d.greatestId at hlast
  unfold nextId? at h
  split at h
  next hlt =>
    have hvalue : id.toInt = d.greatestId + 1 := by
      rw [← Option.some.inj h]
      exact Int64.toInt_ofInt_of_le (by omega) (by omega)
    refine ⟨hvalue, fun r hr => Int64.lt_iff_toInt_lt.2 ?_⟩
    have hle : r.id.toInt ≤ d.greatestId := hrows r hr
    omega
  next => cases h

/-- **A run that was recorded is got back under its id.** -/
theorem getRun_insertRun {run : NewRun} {output : BatchOutput} (h : d.insertRun run output = .ok (id, new)) :
    new.getRun id = record (newRow id run output) := by
  have hadds := insertRun_eq_ok_iff.1 h
  have hfresh : ∀ row ∈ d.runRows, row.id ≠ id := fun row hrow hid =>
    Int64.lt_irrefl (hid ▸ (toInt_nextId? hadds.fresh).2 row hrow)
  have hfind : (d.runRows ++ [newRow id run output]).find? (·.id = id) = some (newRow id run output) := by
    rw [List.find?_append, List.find?_eq_none.2 fun row hrow => by simpa using hfresh row hrow, Option.none_or]
    exact List.find?_cons_of_pos (decide_eq_true rfl)
  rw [hadds.added, getRun]
  dsimp only
  rw [hfind]

end Database

abbrev Ledger := List Recorded

namespace Ledger

def lastId (l : Ledger) : Int64 := (l.getLast?.map (·.id)).getD 0

def database (l : Ledger) : Database where
  version := Store.currentVersion
  runs := some (l.map fun r => Database.newRow r.id r.run r.output)
  entries := some (l.flatMap fun r => Database.newEntries r.id r.output)
  lastId := l.lastId

def list (l : Ledger) : List RunRecord := l.map Recorded.record

def get (l : Ledger) (id : Int64) : Except StoreError RunRecord :=
  match l.find? (·.id = id) with
  | some r => .ok r.record
  | none => .error (.runNotFound id)

def load (l : Ledger) (id : Int64) : Except StoreError BatchOutput :=
  match l.find? (·.id = id) with
  | some r => .ok r.loaded
  | none => .error (.runNotFound id)

/-- **Ids ascend**, from one on. -/
structure Ordered (l : Ledger) : Prop where
  ascending : l.Pairwise (·.id < ·.id)
  positive : ∀ r ∈ l, 0 < r.id
  fits : ∀ r ∈ l, r.Fits

variable {l : Ledger} {r : Recorded} {id : Int64}

theorem ordered_nil : Ordered [] := ⟨.nil, (fun _ h => nomatch h), (fun _ h => nomatch h)⟩

theorem Ordered.append (h : Ordered l) (hlast : ∀ x ∈ l, x.id < r.id) (hpos : 0 < r.id) (hfits : r.Fits) :
    Ordered (l ++ [r]) where
  ascending := List.pairwise_append.2 ⟨h.ascending, List.pairwise_singleton _ _, fun x hx y hy => by
    rw [List.mem_singleton.1 hy]
    exact hlast x hx⟩
  positive x hx := by
    rcases List.mem_append.1 hx with hx | hx
    · exact h.positive x hx
    · rw [List.mem_singleton.1 hx]; exact hpos
  fits x hx := by
    rcases List.mem_append.1 hx with hx | hx
    · exact h.fits x hx
    · rw [List.mem_singleton.1 hx]; exact hfits

theorem Ordered.find?_eq (h : Ordered l) (hr : r ∈ l) : l.find? (·.id = r.id) = some r := by
  have hpair := h.ascending
  clear h
  induction l with
  | nil => exact nomatch hr
  | cons x rest ih =>
    obtain ⟨hx, hrest⟩ := List.pairwise_cons.1 hpair
    rcases List.mem_cons.1 hr with rfl | hr
    · rw [List.find?_cons_of_pos (by simp)]
    · have hne : x.id ≠ r.id := fun e => Int64.lt_irrefl (e ▸ hx r hr)
      rw [List.find?_cons_of_neg (by simpa using hne), ih hr hrest]

theorem find?_eq_none (hid : id ∉ l.map (·.id)) : l.find? (·.id = id) = none := by
  refine List.find?_eq_none.2 fun x hx he => hid ?_
  exact List.mem_map.2 ⟨x, hx, of_decide_eq_true he⟩

theorem Ordered.get_eq (h : Ordered l) (hr : r ∈ l) : l.get r.id = .ok r.record := by rw [get, h.find?_eq hr]

theorem Ordered.load_eq (h : Ordered l) (hr : r ∈ l) : l.load r.id = .ok r.loaded := by rw [load, h.find?_eq hr]

theorem get_eq_error (hid : id ∉ l.map (·.id)) : l.get id = .error (.runNotFound id) := by rw [get, find?_eq_none hid]

theorem load_eq_error (hid : id ∉ l.map (·.id)) : l.load id = .error (.runNotFound id) := by
  rw [load, find?_eq_none hid]

/-! ## Reading the tables -/

open Database (newRow newEntries run_of_mem_newEntries)

theorem record_newRow (r : Recorded) : Database.record (newRow r.id r.run r.output) = .ok r.record := by
  have hlabelled : ((if r.output.labels.isEmpty then 0 else 1 : Int64) != 0) = !r.output.labels.isEmpty := by
    cases r.output.labels.isEmpty <;> decide
  rw [Database.record, newRow]
  simp only [SliceMode.ofName?_name, hlabelled, Int64.toUInt64_ofNat']
  rfl

theorem listRuns_database (h : Ordered l) : l.database.listRuns = .ok l.list := by
  let rows := l.map fun r => newRow r.id r.run r.output
  have hsorted : rows.Pairwise fun a b => decide (a.id ≤ b.id) = true := by
    refine List.pairwise_map.2 (h.ascending.imp fun {a b} hab => ?_)
    exact decide_eq_true (Int64.le_of_lt hab)
  change (rows.mergeSort _).mapM Database.record = _
  rw [List.mergeSort_of_pairwise hsorted, List.mapM_map]
  exact Work.mapM_eq_pure fun r _ => record_newRow r

theorem getRun_database (l : Ledger) (id : Int64) : l.database.getRun id = l.get id := by
  have hfind : (l.map fun r => newRow r.id r.run r.output).find? (·.id = id)
      = (l.find? (·.id = id)).map fun r => newRow r.id r.run r.output := List.find?_map
  rw [Database.getRun, database, get]
  simp only [hfind]
  cases l.find? (·.id = id) with
  | none => rfl
  | some r => exact record_newRow r

/-! ## Reading the slices of a run -/

theorem map_text_pair : ∀ texts labels : List String, (BatchOutput.pair texts labels).map (·.text) = texts
  | [], _ => rfl
  | text :: texts, [] => congrArg (text :: ·) (map_text_pair texts [])
  | text :: texts, _ :: labels => congrArg (text :: ·) (map_text_pair texts labels)

theorem filterMap_label_pair : ∀ texts labels : List String,
    (BatchOutput.pair texts labels).filterMap (·.label) = labels.take texts.length
  | [], _ => rfl
  | _ :: texts, [] => (filterMap_label_pair texts []).trans List.take_nil
  | _ :: texts, label :: labels => congrArg (label :: ·) (filterMap_label_pair texts labels)

theorem filter_newEntries (x id : Int64) (o : BatchOutput) :
    (newEntries x o).filter (·.run = id) = if x = id then newEntries x o else [] := by
  split
  next h => exact List.filter_eq_self.2 fun e he => decide_eq_true ((run_of_mem_newEntries he).trans h)
  next h => exact List.filter_eq_nil_iff.2 fun e he => by simpa [run_of_mem_newEntries he] using h

theorem Ordered.filter_entries (h : Ordered l) (hr : r ∈ l) :
    (l.flatMap fun r => newEntries r.id r.output).filter (·.run = r.id) = newEntries r.id r.output := by
  have hpair := h.ascending
  clear h
  induction l with
  | nil => exact nomatch hr
  | cons x rest ih =>
    obtain ⟨hx, hrest⟩ := List.pairwise_cons.1 hpair
    rw [List.flatMap_cons, List.filter_append, filter_newEntries]
    -- The run is the first one, and no later one has its id; or it is a later one, and the first has another id.
    rcases List.mem_cons.1 hr with rfl | hr
    · have hnone : (rest.flatMap fun y => newEntries y.id y.output).filter (·.run = r.id) = [] := by
        rw [List.filter_flatMap]
        refine List.flatMap_eq_nil_iff.2 fun y hy => ?_
        rw [filter_newEntries, if_neg fun e => Int64.lt_irrefl (e ▸ hx y hy)]
      rw [if_pos rfl, hnone, List.append_nil]
    · rw [if_neg fun e => Int64.lt_irrefl (e ▸ hx r hr), List.nil_append, ih hr hrest]

theorem mergeSort_newEntries {o : BatchOutput} (hfits : (o.codeSlices.length : Int) ≤ Int64.maxValue.toInt) (id : Int64) :
    ((newEntries id o).mergeSort fun a b => a.position.le b.position) = newEntries id o :=
  List.mergeSort_of_pairwise ((Database.pairwise_newEntries hfits).imp fun ⟨m, n, ha, hb, hlt⟩ => by
    rw [ha, hb]
    exact decide_eq_true (Int64.le_of_lt hlt))

theorem Ordered.entriesOf_database (h : Ordered l) (hr : r ∈ l) :
    l.database.entriesOf r.id = newEntries r.id r.output := by
  change ((l.flatMap fun r => newEntries r.id r.output).filter _).mergeSort _ = _
  rw [h.filter_entries hr, mergeSort_newEntries (h.fits r hr)]

theorem map_newEntries {α : Type} (id : Int64) (o : BatchOutput) (f : SliceResult → α) (g : EntryRow → α)
    (h : ∀ i (r : SliceResult), g ⟨id, .number (Int64.ofNat i), r.text, r.label⟩ = f r) :
    (newEntries id o).map g = o.results.map f := by
  refine List.ext_getElem (by simp [newEntries]) fun i _ _ => ?_
  simp only [newEntries, List.getElem_map, List.getElem_mapIdx]
  exact h i _

theorem map_text_newEntries (id : Int64) (o : BatchOutput) : (newEntries id o).map (·.text) = o.codeSlices :=
  (map_newEntries id o (·.text) (·.text) fun _ _ => rfl).trans (map_text_pair _ _)

theorem filterMap_label_newEntries (id : Int64) (o : BatchOutput) :
    (newEntries id o).filterMap (·.label) = o.labels.take o.codeSlices.length := by
  have hlabels : (newEntries id o).map (·.label) = o.results.map (·.label) :=
    map_newEntries id o (·.label) (·.label) fun _ _ => rfl
  have hjoin {α : Type} (f : α → Option String) (l : List α) : l.filterMap f = (l.map f).filterMap (fun x => x) := by
    rw [List.filterMap_map]; rfl
  rw [← filterMap_label_pair, hjoin, hlabels, ← hjoin]
  rfl

/-- **The tables are read back as the ledger says.** -/
theorem loadOutput_database (h : Ordered l) (id : Int64) : l.database.loadOutput id = l.load id := by
  have hget : l.database.getRun id = l.get id := getRun_database l id
  by_cases hid : id ∈ l.map (·.id)
  · obtain ⟨r, hr, rfl⟩ := List.mem_map.1 hid
    rw [h.get_eq hr] at hget
    rw [Database.loadOutput, hget, h.load_eq hr]
    change Except.ok (⟨(l.database.entriesOf r.id).map (·.text), (l.database.entriesOf r.id).filterMap (·.label)⟩
      : BatchOutput) = _
    rw [h.entriesOf_database hr, map_text_newEntries, filterMap_label_newEntries]
    rfl
  · rw [get_eq_error hid] at hget
    rw [Database.loadOutput, hget, load_eq_error hid]
    rfl

theorem Ordered.sound (h : Ordered l) : l.database.Sound where
  run_mem e he := by
    obtain ⟨r, hr, he⟩ := List.mem_flatMap.1 he
    exact ⟨newRow r.id r.run r.output, List.mem_map.2 ⟨r, hr, rfl⟩, (run_of_mem_newEntries he).symm⟩
  distinct := by
    refine List.pairwise_flatMap.2 ⟨fun r hr => ?_, h.ascending.imp fun {r x} hlt a ha b hb hrun => ?_⟩
    · refine (Database.distinct_newEntries (h.fits r hr)).imp ?_
      exact fun hab _ => hab
    · rw [run_of_mem_newEntries ha, run_of_mem_newEntries hb] at hrun
      exact absurd (hrun ▸ hlt) Int64.lt_irrefl
  ids_distinct := by
    have hids : (l.map (·.id)).Nodup :=
      List.pairwise_map.2 (h.ascending.imp fun {r x} (hlt : r.id < x.id) (e : r.id = x.id) =>
        Int64.lt_irrefl (e ▸ hlt))
    change ((l.map fun r => newRow r.id r.run r.output).map (·.id)).Nodup
    rw [List.map_map]
    exact hids

/-! ## Recording -/

theorem lastId_append (l : Ledger) (r : Recorded) : lastId (l ++ [r]) = r.id := by
  rw [lastId, List.getLast?_concat]
  rfl

theorem Ordered.le_lastId (h : Ordered l) (hr : r ∈ l) : r.id ≤ l.lastId := by
  rcases List.eq_nil_or_concat l with rfl | ⟨before, last, rfl⟩
  · exact nomatch hr
  · rw [List.concat_eq_append] at h hr ⊢
    rw [lastId_append]
    rcases List.mem_append.1 hr with hr | hr
    · exact Int64.le_of_lt ((List.pairwise_append.1 h.ascending).2.2 r hr last (List.mem_singleton.2 rfl))
    · rw [List.mem_singleton.1 hr]; exact Int64.le_refl _

theorem Ordered.lastId_nonneg (h : Ordered l) : 0 ≤ l.lastId.toInt := by
  rcases List.eq_nil_or_concat l with rfl | ⟨before, last, rfl⟩
  · decide
  · have hpos := Int64.lt_iff_toInt_lt.1 (h.positive last (by simp))
    rw [List.concat_eq_append, lastId_append]
    exact Int.le_of_lt hpos

theorem foldl_max_eq {m : Int} : ∀ {rows : List RunRow}, (∀ r ∈ rows, r.id.toInt ≤ m) →
    rows.foldl (fun m r => max m r.id.toInt) m = m
  | [], _ => rfl
  | r :: rest, h => by
    rw [List.foldl_cons, Int.max_eq_left (h r List.mem_cons_self),
      foldl_max_eq fun x hx => h x (List.mem_cons_of_mem _ hx)]

theorem Ordered.greatestId_database (h : Ordered l) : l.database.greatestId = l.lastId.toInt := by
  refine foldl_max_eq fun row hrow => ?_
  obtain ⟨r, hr, rfl⟩ := List.mem_map.1 hrow
  exact Int64.le_iff_toInt_le.1 (h.le_lastId hr)

theorem Ordered.lt_nextId (h : Ordered l) (hid : l.database.nextId? = some id) :
    0 < id ∧ ∀ r ∈ l, r.id < id := by
  obtain ⟨hvalue, hlt⟩ := Database.toInt_nextId? hid
  have hnonneg := h.lastId_nonneg
  rw [h.greatestId_database] at hvalue
  refine ⟨Int64.lt_iff_toInt_lt.2 ?_, fun r hr => ?_⟩
  · rw [hvalue]
    change (0 : Int) < _
    omega
  · have hrow : newRow r.id r.run r.output ∈ l.database.runRows :=
      List.mem_map_of_mem (f := fun r : Recorded => newRow r.id r.run r.output) hr
    exact hlt (newRow r.id r.run r.output) hrow

theorem database_append (l : Ledger) (r : Recorded) : (l ++ [r]).database =
    ⟨Store.currentVersion, some ((l.map fun r => newRow r.id r.run r.output) ++ [newRow r.id r.run r.output]),
      some ((l.flatMap fun r => newEntries r.id r.output) ++ newEntries r.id r.output), r.id, []⟩ := by
  rw [database, lastId_append, List.map_append, List.flatMap_append, List.flatMap_singleton]
  rfl

/-- **Recording a run adds it at the end of the ledger**, under an id that is greater than all before. -/
theorem insertRun_database {run : NewRun} {output : BatchOutput} {d : Database} (h : Ordered l)
    (hins : l.database.insertRun run output = .ok (id, d)) :
    d = database (l ++ [⟨id, run, output⟩]) ∧ Ordered (l ++ [⟨id, run, output⟩]) ∧ ∀ r ∈ l, r.id < id := by
  have hadds := Database.insertRun_eq_ok_iff.1 hins
  obtain ⟨hpos, hlt⟩ := h.lt_nextId hadds.fresh
  refine ⟨?_, h.append hlt hpos hadds.fits, hlt⟩
  rw [hadds.added, database_append]
  rfl

/-! ## Opening -/

theorem migrate_blank : Database.migrate .blank = .ok (database []) := rfl

theorem migrate_database (l : Ledger) : l.database.migrate = .ok l.database := rfl

end Ledger
end SourceSlice
