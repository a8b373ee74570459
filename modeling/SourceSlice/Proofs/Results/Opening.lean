import SourceSlice.Proofs.FileSystem.Tree
import SourceSlice.Proofs.Results.Transactions
import SourceSlice.Results.Handle
/-!
# What opening and recording do to the files

A database that is kept in a file is what stands at its place (`databaseAt`); the journal and the log beside it do not
count.  Opening it brings it to the current version or leaves it as it was (`openFile_ends`), and recording a run
changes it as `Database.insertRun` says or changes no file at all (`insertRun_ends`).  Either way no other file changes:
the trees before and after are alike `Around` the place.
-/
namespace SourceSlice

def StoreError.isOfDatabase : StoreError → Bool
  | io _ => false
  | json _ => false
  | _ => true

namespace Database

variable {d new : Database} {e : StoreError}

theorem isOfDatabase_of_insertRun {run : NewRun} {output : BatchOutput} (h : d.insertRun run output = .error e) :
    e.isOfDatabase := by
  obtain ⟨detail, rfl⟩ := exists_sql_of_insertRun h
  rfl

/-- A table after it was made, where its name is not borne by something else. -/
def withTable {α : Type} (d : Database) (name : String) (table : Option (List α)) : Option (List α) :=
  if table.isNone ∧ (d.bearer? name).isSome then none else some (table.getD [])

theorem withTable_of_free {α : Type} {name : String} (h : d.bearer? name = none) (table : Option (List α)) :
    d.withTable name table = some (table.getD []) := if_neg fun hborne => by
  rw [h] at hborne
  cases hborne.2

theorem rows_withTable {α : Type} (d : Database) (name : String) (table : Option (List α)) :
    (d.withTable name table).getD [] = table.getD [] := by
  unfold withTable
  split_ifs with h
  · rw [Option.isNone_iff_eq_none.1 h.1]
  · rfl

theorem makeTable_cases {α : Type} (d : Database) (name : String) (table : Option (List α)) :
    d.makeTable name table = .ok (d.withTable name table) ∨
      ((d.bearer? name).isSome ∧ ∃ detail, d.makeTable name table = .error (.sql detail)) := by
  unfold makeTable withTable
  cases table with
  | some rows => exact .inl rfl
  | none =>
    cases d.bearer? name with
    | none => exact .inl rfl
    | some bearer =>
      dsimp only
      split
      · exact .inr ⟨rfl, _, rfl⟩
      · exact .inl rfl

def withTables (d : Database) : Database :=
  { d with
    version := Store.currentVersion
    runs := d.withTable runsName d.runs
    entries := d.withTable entriesName d.entries }

/-- **What bringing a database to the current version comes to**, by its version. -/
theorem migrate_cases (d : Database) :
    (Store.currentVersion < d.version ∧ d.migrate = .error (.unsupportedVersion d.version)) ∨
    (d.version = 0 ∧ d.migrate = .ok d.withTables) ∨
    (d.version = 0 ∧ ¬ d.NamesFree ∧ ∃ detail, d.migrate = .error (.sql detail)) ∨
    (¬ Store.currentVersion < d.version ∧ d.version ≠ 0 ∧ d.migrate = .ok d) := by
  unfold migrate
  split_ifs with hnewer hzero
  · exact .inl ⟨hnewer, rfl⟩
  · refine .inr ?_
    rcases makeTable_cases d runsName d.runs with hruns | ⟨hbearer, detail, hruns⟩
    · rcases makeTable_cases d entriesName d.entries with hentries | ⟨hbearer, detail, hentries⟩
      · exact .inl ⟨hzero, by rw [hruns, hentries]; rfl⟩
      · refine .inr (.inl ⟨hzero, fun hfree => ?_, detail, by rw [hruns, hentries]; rfl⟩)
        rw [hfree.2] at hbearer
        cases hbearer
    · refine .inr (.inl ⟨hzero, fun hfree => ?_, detail, by rw [hruns]; rfl⟩)
      rw [hfree.1] at hbearer
      cases hbearer
  · exact .inr (.inr (.inr ⟨hnewer, hzero, rfl⟩))

theorem isOfDatabase_of_migrate (h : d.migrate = .error e) : e.isOfDatabase := by
  rcases migrate_cases d with ⟨-, hd⟩ | ⟨-, hd⟩ | ⟨-, -, detail, hd⟩ | ⟨-, -, hd⟩ <;> rw [hd] at h <;> cases h <;> rfl

theorem migrate_eq_ok (h : d.migrate = .ok new) :
    (d.version = 0 ∧ new = d.withTables) ∨ (¬ Store.currentVersion < d.version ∧ d.version ≠ 0 ∧ new = d) := by
  rcases migrate_cases d with ⟨-, hd⟩ | ⟨hzero, hd⟩ | ⟨-, -, detail, hd⟩ | ⟨hnewer, hzero, hd⟩ <;>
    rw [hd] at h <;> cases h
  · exact .inl ⟨hzero, rfl⟩
  · exact .inr ⟨hnewer, hzero, rfl⟩

theorem eq_of_migrate (h : d.migrate = .ok new) (hversion : d.version ≠ 0) : new = d := by
  rcases migrate_eq_ok h with ⟨hzero, -⟩ | ⟨-, -, hnew⟩
  · exact absurd hzero hversion
  · exact hnew

theorem ne_blank_of_insertRun {run : NewRun} {output : BatchOutput} {id : Int64}
    (h : d.insertRun run output = .ok (id, new)) : d ≠ .blank := by
  rintro rfl
  cases (insertRun_eq_ok_iff.1 h).runs

theorem rows_of_migrate (h : d.migrate = .ok new) : new.runRows = d.runRows ∧ new.entryRows = d.entryRows := by
  rcases migrate_eq_ok h with ⟨-, rfl⟩ | ⟨-, -, rfl⟩
  · exact ⟨d.rows_withTable runsName d.runs, d.rows_withTable entriesName d.entries⟩
  · exact ⟨rfl, rfl⟩

theorem rows_of_insertRun {run : NewRun} {output : BatchOutput} {id : Int64}
    (h : d.insertRun run output = .ok (id, new)) :
    new.runRows = d.runRows ++ [newRow id run output] ∧ new.entryRows = d.entryRows ++ newEntries id output := by
  rw [(insertRun_eq_ok_iff.1 h).added]
  exact ⟨rfl, rfl⟩

end Database

theorem Location.beside_ne {mark : String} {l : Location} (hmark : mark ≠ "") (hl : l ≠ []) : l.beside mark ≠ l := by
  cases l with
  | nil => exact absurd rfl hl
  | cons name l =>
    intro h
    have hsize := congrArg String.utf8ByteSize (List.cons.inj h).1
    rw [String.utf8ByteSize_append] at hsize
    exact hmark (String.utf8ByteSize_eq_zero_iff.1 (by omega))

namespace FileSystem

variable {files a b c : FileSystem} {l : Location}

/-- The database in the file at a place.  Where there is none, nothing has been made. -/
def databaseAt (files : FileSystem) (l : Location) : Database := (Handle.file l true).database files

def homeOf? (files : FileSystem) (name : Path) : Option Location :=
  match Address.ofName? name.text with
  | some (.file p _) => some (files.spelledPlace p)
  | _ => none

def databasePlaces (l : Location) : Set Location := {l, l.beside journalMark, l.beside logMark}

instance (l k : Location) : Decidable (k ∈ databasePlaces l) :=
  inferInstanceAs (Decidable (k = l ∨ k = l.beside journalMark ∨ k = l.beside logMark))

def isUnreadAt (files : FileSystem) (l : Location) : Bool :=
  match files.node? l with
  | some (.file content _) => content.isUnread
  | _ => false

/-- **All is known of a database**: it is none that others made with tables of theirs, and neither a log nor a journal
beside it holds pages of it. -/
structure Known (files : FileSystem) (l : Location) : Prop where
  read : files.isUnreadAt l = false
  journal : files.leftoverAt (l.beside journalMark) ≠ .live
  log : files.leftoverAt (l.beside logMark) ≠ .live

instance (files : FileSystem) (l : Location) : Decidable (files.Known l) :=
  decidable_of_iff (files.isUnreadAt l = false ∧ files.leftoverAt (l.beside journalMark) ≠ .live ∧
      files.leftoverAt (l.beside logMark) ≠ .live)
    ⟨fun h => ⟨h.1, h.2.1, h.2.2⟩, fun h => ⟨h.read, h.journal, h.log⟩⟩

/-- **Two trees alike around a database**: a well-formed tree stays well-formed, and only its files may differ. -/
structure Around (l : Location) (a b : FileSystem) : Prop where
  current : b.current = a.current
  rooted : a.Rooted → b.Rooted
  alike : a.Rooted → Alike (databasePlaces l) a b

namespace Around

theorem refl (a : FileSystem) : Around l a a := ⟨rfl, id, fun _ => .refl a⟩

theorem trans (h : Around l a b) (h' : Around l b c) : Around l a c where
  current := h'.current.trans h.current
  rooted ha := h'.rooted (h.rooted ha)
  alike ha := (h.alike ha).trans (h'.alike (h.rooted ha))

theorem erase {k : Location} (hk : files.isDirectoryAt k ≠ true) (hmem : k ∈ databasePlaces l) :
    Around l files (files.erase k) where
  current := rfl
  rooted h := h.erase hk
  alike h := .erase h hk hmem

theorem put {content : Content} {executable : Bool} (hl : files.isDirectoryAt l ≠ true)
    (htail : files.Rooted → files.isDirectoryAt l.tail = true) :
    Around l files (files.put l (.file content executable)) where
  current := rfl
  rooted h := h.put hl (htail h)
  alike _ := .put hl (Set.mem_insert _ _)

end Around

theorem databaseAt_eq (h : files.node? l = b.node? l) : files.databaseAt l = b.databaseAt l := by
  rw [databaseAt, databaseAt, Handle.database, Handle.database, h]

theorem databaseAt_of_none (h : files.node? l = none) : files.databaseAt l = .blank := by
  rw [databaseAt, Handle.database, h]

theorem databaseAt_of_file {content : Content} {executable : Bool}
    (h : files.node? l = some (.file content executable)) :
    files.databaseAt l = content.database?.getD .blank := by
  rw [databaseAt, Handle.database, h]

theorem exists_file_of_databaseAt_ne (h : files.databaseAt l ≠ .blank) :
    ∃ content executable, files.node? l = some (.file content executable) := by
  cases hnode : files.node? l with
  | none => exact absurd (databaseAt_of_none hnode) h
  | some n => cases n with
    | file content executable => exact ⟨content, executable, rfl⟩
    | directory =>
      refine absurd ?_ h
      rw [databaseAt, Handle.database, hnode]

theorem node?_erase_beside {mark : String} (hmark : mark ≠ "") (hl : l ≠ []) :
    (files.erase (l.beside mark)).node? l = files.node? l := by
  have hlength : List.length (l.beside mark) = List.length l := by cases l <;> rfl
  have hne : l.beside mark ≠ [] := by
    cases l with
    | nil => exact hl
    | cons name l => exact List.cons_ne_nil _ _
  rw [node?_erase hne, if_neg fun h => Location.beside_ne hmark hl (h.eq_of_length hlength)]

/-! ## The files beside a database -/

theorem beside_journal_mem (l : Location) : l.beside journalMark ∈ databasePlaces l := .inr (.inl rfl)

theorem beside_log_mem (l : Location) : l.beside logMark ∈ databasePlaces l := .inr (.inr rfl)

theorem not_isDirectoryAt_of_leftoverAt (h : files.leftoverAt l ≠ .directory) : files.isDirectoryAt l ≠ true := by
  intro hd
  rw [leftoverAt, isDirectoryAt_eq_true.1 hd] at h
  exact h rfl

theorem clear_beside {mark : String} {p : Prop} [Decidable p] (hmark : mark ≠ "") (hl : l ≠ [])
    (hmem : l.beside mark ∈ databasePlaces l) (hd : files.leftoverAt (l.beside mark) ≠ .directory)
    (h : (if p then files.erase (l.beside mark) else files) = a) :
    Around l files a ∧ a.node? l = files.node? l := by
  subst h
  split
  · exact ⟨.erase (not_isDirectoryAt_of_leftoverAt hd) hmem, node?_erase_beside hmark hl⟩
  · exact ⟨.refl _, rfl⟩

theorem settleJournal_some {unwritten writable : Bool} (hl : l ≠ [])
    (h : files.settleJournal l unwritten writable = some a) : Around l files a ∧ a.node? l = files.node? l := by
  have hclear {p : Prop} [Decidable p] := @clear_beside files a l journalMark p _ (by decide) hl (beside_journal_mem l)
  unfold settleJournal at h
  dsimp only at h
  split at h
  next => cases h; exact ⟨.refl _, rfl⟩
  next => cases h; exact ⟨.refl _, rfl⟩
  next => cases h
  next hdirectory => exact hclear hdirectory (Option.some.inj h)
  next => cases h; exact ⟨.refl _, rfl⟩
  next hfile =>
    split at h
    next => cases h; exact hclear (p := True) (by rw [hfile]; exact Leftover.noConfusion) (if_pos trivial)
    next => cases h
  next => cases h

theorem settleLog_some {unwritten writable : Bool} (hl : l ≠ [])
    (h : files.settleLog l unwritten writable = some a) : Around l files a ∧ a.node? l = files.node? l := by
  unfold settleLog at h
  dsimp only at h
  split at h
  next => cases h; exact ⟨.refl _, rfl⟩
  next => cases h
  next hlive =>
    split at h
    next =>
      cases h
      refine clear_beside (p := True) (by decide) hl (beside_log_mem l) ?_ (if_pos trivial)
      rw [hlive]
      exact Leftover.noConfusion
    next => cases h
  next hdirectory _ => exact clear_beside (by decide) hl (beside_log_mem l) hdirectory (Option.some.inj h)

/-! ## Writing a database -/

theorem writeDatabase?_some {d : Database} {content : Content} {executable : Bool}
    (hfile : files.node? l = some (.file content executable)) (h : files.writeDatabase? l d = some a) :
    Around l files a ∧ a.databaseAt l = d := by
  have hd : files.isDirectoryAt l ≠ true := not_isDirectoryAt_of_file hfile
  have hl : l ≠ [] := ne_nil_of_not_isDirectoryAt hd
  unfold writeDatabase? at h
  dsimp only at h
  split at h
  next => cases h
  next hjournal =>
    cases h
    have hsame : (files.erase (l.beside journalMark)).node? l = files.node? l := node?_erase_beside (by decide) hl
    have herase : Around l files (files.erase (l.beside journalMark)) :=
      .erase (fun hj => hjournal (.inl hj)) (beside_journal_mem l)
    refine ⟨herase.trans (.put ?_ fun hrooted => hrooted.isDirectoryAt_tail ?_), ?_⟩
    · rwa [isDirectoryAt, hsame]
    · rw [hsame, hfile]; rfl
    · rw [databaseAt_of_file (node?_put _ _ _ _ hl |>.trans (if_pos rfl))]
      rfl

end FileSystem

namespace Handle

open FileSystem Work

variable {files : FileSystem} {l : Location}

theorem ends_orRefuse {α : Type} {detail : String} {x : Option α} {done : α → FileSystem → Prop}
    {failed : StoreError → FileSystem → Prop} (hdone : ∀ a, x = some a → done a files)
    (hfailed : x = none → failed (.sql detail) files) : Ends (orRefuse detail x) files done failed := by
  cases x with
  | none => exact hfailed rfl
  | some a => exact hdone a rfl

theorem save_ends {content : Content} {executable : Bool} (hfile : files.node? l = some (.file content executable))
    (d : Database) (writable : Bool) :
    Ends (save d (.file l writable)) files
      (fun h after => h = .file l writable ∧ Around l files after ∧ after.databaseAt l = d)
      (fun e after => e.isOfDatabase ∧ after = files) := by
  cases writable with
  | false => exact ⟨rfl, rfl⟩
  | true =>
    refine .bind (ends_get.2 (.bind (ends_orRefuse (fun after hafter => ?_) fun _ => ⟨rfl, rfl⟩)))
    exact .bind (ends_set.2 ⟨rfl, writeDatabase?_some hfile hafter⟩)

theorem found_of_frozen {o : Opening} (h : o.frozen = true) (l : Location) (d : Database) : found l o d = .frozen d :=
  if_pos h

theorem found_of_not_frozen {o : Opening} (h : o.frozen = false) (l : Location) (d : Database) :
    found l o d = .file l o.writable := if_neg (by rw [h]; exact Bool.false_ne_true)

theorem database_found (files : FileSystem) (l : Location) (o : Opening) :
    (found l o (files.databaseAt l)).database files = files.databaseAt l := by
  unfold found
  split_ifs
  · rfl
  · rfl

theorem migrated_ends {content : Content} {executable : Bool} (hfile : files.node? l = some (.file content executable))
    {d : Database} (hd : files.databaseAt l = d) (o : Opening) :
    Ends (migrated (found l o d) d) files
      (fun h after => h = found l o (after.databaseAt l) ∧ Around l files after ∧
        d.migrate = .ok (after.databaseAt l))
      (fun e after => e.isOfDatabase ∧ after = files) := by
  unfold migrated
  cases hnew : d.migrate with
  | error e => exact ⟨Database.isOfDatabase_of_migrate hnew, rfl⟩
  | ok new =>
    dsimp only
    split_ifs with hversion
    · cases hfrozen : o.frozen with
      | true =>
        rw [found_of_frozen hfrozen]
        exact ⟨rfl, rfl⟩
      | false =>
        rw [found_of_not_frozen hfrozen]
        refine (save_ends hfile new o.writable).imp ?_ fun _ _ h => h
        rintro h after ⟨hh, haround, hat⟩
        exact ⟨hh.trans (found_of_not_frozen hfrozen l _).symm, haround, hat ▸ rfl⟩
    · obtain rfl := Database.eq_of_migrate hnew hversion
      exact ⟨by rw [hd], .refl _, by rw [hd]⟩

theorem contentAt_ends (hl : files.Rooted → files.isDirectoryAt l.tail = true) (o : Opening) :
    Ends (contentAt l o) files
      (fun content after => Around l files after ∧ after.databaseAt l = files.databaseAt l ∧
        (∃ executable, after.node? l = some (.file content executable)) ∧
        (files.node? l ≠ none → after.node? l = files.node? l))
      (fun e after => e.isOfDatabase ∧ after = files) := by
  refine .bind (ends_get.2 ?_)
  split
  next content executable hnode => exact ⟨.refl _, rfl, ⟨executable, hnode⟩, fun _ => rfl⟩
  next => exact ⟨rfl, rfl⟩
  next hnode =>
    split_ifs
    · have hd : files.isDirectoryAt l ≠ true := by
        rw [ne_eq, isDirectoryAt_eq_true, hnode]
        exact nofun
      have hput : (files.put l (.file (.bytes ByteArray.empty) false)).node? l
          = some (.file (.bytes ByteArray.empty) false) := node?_put_self (ne_nil_of_not_isDirectoryAt hd)
      refine .bind (ends_modify.2 ⟨.put hd hl, ?_, ⟨false, hput⟩, fun hfile => absurd hnode hfile⟩)
      rw [databaseAt_of_file hput, databaseAt_of_none hnode]
      rfl
    · exact ⟨rfl, rfl⟩

theorem settle_ends (hl : l ≠ []) (unwritten writable : Bool) :
    Ends (settle l unwritten writable) files
      (fun _ after => Around l files after ∧ after.node? l = files.node? l)
      (fun e after => e.isOfDatabase ∧ Around l files after ∧ after.node? l = files.node? l) := by
  refine .bind (ends_get.2 (.bind (ends_orRefuse (fun a ha => ?_) fun _ => ⟨rfl, .refl _, rfl⟩)))
  obtain ⟨haround, hnode⟩ := settleJournal_some hl ha
  refine .bind (ends_set.2 (.bind (ends_get.2 (.bind (ends_orRefuse (fun b hb => ?_) fun _ => ⟨rfl, haround, hnode⟩)))))
  obtain ⟨haround', hnode'⟩ := settleLog_some hl hb
  exact ends_set.2 ⟨haround.trans haround', hnode'.trans hnode⟩

theorem databaseStep_some {k : Location} {s : Path.Step} (h : databaseStep files l s = some k) : k = l.after s := by
  unfold databaseStep at h
  cases s <;> grind [Location.after]

theorem foldlM_databaseStep_some : ∀ {steps : List Path.Step} {l k : Location},
    steps.foldlM (databaseStep files) l = some k → k = steps.foldl Location.after l
  | [], _, _, h => (Option.some.inj h).symm
  | s :: rest, _, k, h => by
    rw [List.foldlM_cons, Option.bind_eq_bind, Option.bind_eq_some_iff] at h
    obtain ⟨m, hm, hrest⟩ := h
    rw [List.foldl_cons, ← databaseStep_some hm]
    exact foldlM_databaseStep_some hrest

theorem databasePlace?_some {p : Path} (h : files.databasePlace? p = some l) :
    l = files.spelledPlace p ∧ l ≠ [] ∧ files.isDirectoryAt l.tail = true := by
  unfold databasePlace? at h
  rw [Option.bind_eq_bind, Option.bind_eq_some_iff] at h
  obtain ⟨m, hm, h⟩ := h
  split_ifs at h with hbad
  cases h
  refine ⟨foldlM_databaseStep_some hm, fun hnil => hbad (.inl hnil), ?_⟩
  by_contra hd
  exact hbad (.inr (.inr (by simpa using hd)))

def readFound (l : Location) (o : Opening) (content : Content) : Storing Handle := do
  let d ← orRefuse "file is not a database" content.database?
  migrated (found l o d) d

theorem readDatabase_ends {before : FileSystem} {content : Content} {executable : Bool}
    (hfile : files.node? l = some (.file content executable)) (haround : Around l before files)
    (hat : files.databaseAt l = before.databaseAt l) (o : Opening) :
    Ends (readFound l o content) files
      (fun h after => h = found l o (after.databaseAt l) ∧ Around l before after ∧
        (before.databaseAt l).migrate = .ok (after.databaseAt l))
      (fun e after => e.isOfDatabase ∧ Around l before after ∧ after.databaseAt l = before.databaseAt l) := by
  refine .bind (ends_orRefuse (fun d hd => ?_) fun _ => ⟨rfl, haround, hat⟩)
  have hdatabase : files.databaseAt l = d := by rw [databaseAt_of_file hfile, hd]; rfl
  refine (migrated_ends hfile hdatabase o).imp ?_ ?_
  · rintro h after ⟨hh, haround', hmigrate⟩
    exact ⟨hh, haround.trans haround', by rw [← hat, hdatabase]; exact hmigrate⟩
  · rintro e after ⟨he, rfl⟩
    exact ⟨he, haround, hat⟩

def openPlace (l : Location) (o : Opening) : Storing Handle := do
  let content ← contentAt l o
  if !o.frozen then settle l content.isUnwritten o.writable
  readFound l o content

/-- **Opening at a place brings its database to the current version, or leaves it as it was.** -/
theorem openPlace_ends (hne : l ≠ []) (htail : files.isDirectoryAt l.tail = true) (o : Opening) :
    Ends (openPlace l o) files
      (fun h after => h = found l o (after.databaseAt l) ∧ Around l files after ∧
        (files.databaseAt l).migrate = .ok (after.databaseAt l))
      (fun e after => e.isOfDatabase ∧ Around l files after ∧ after.databaseAt l = files.databaseAt l) := by
  unfold openPlace
  refine .bind ((contentAt_ends (fun _ => htail) o).imp ?_ ?_)
  · rintro content made ⟨haround, hat, ⟨executable, hnode⟩, -⟩
    dsimp only
    split_ifs with hopen
    -- A journal or a log beside the database is looked at first, unless the address says that nothing changes it.
    · refine .bind ((settle_ends hne content.isUnwritten o.writable).imp ?_ ?_)
      · rintro _ settled ⟨haround', hnode'⟩
        exact readDatabase_ends (hnode'.trans hnode) (haround.trans haround') ((databaseAt_eq hnode').trans hat) _
      · rintro e settled ⟨he, haround', hnode'⟩
        exact ⟨he, haround.trans haround', (databaseAt_eq hnode').trans hat⟩
    · exact readDatabase_ends hnode haround hat _
  · rintro e after ⟨he, rfl⟩
    exact ⟨he, .refl _, rfl⟩

def lacksPattern (files : FileSystem) (o : Opening) : Bool := o.pattern.any fun p => !(files.find p matches .ok _)

theorem openFile_eq (p : Path) (o : Opening) (files : FileSystem) : openFile p o files =
    match files.databasePlace? p with
    | none => .error (.sql "unable to open database file") files
    | some l =>
      if lacksPattern files o then .error (.sql "disk I/O error") files else openPlace l o files := by
  have hget : (get : Storing FileSystem) files = .ok files files := rfl
  unfold openFile
  rw [bind_of_ok hget]
  cases files.databasePlace? p with
  | none => rfl
  | some l =>
    have hsome : orRefuse "unable to open database file" (some l) files = .ok l files := rfl
    rw [bind_of_ok hsome]
    by_cases hpattern : lacksPattern files o = true
    · exact (congrFun (if_pos hpattern) files).trans (if_pos hpattern).symm
    · exact (congrFun (if_neg hpattern) files).trans (if_neg hpattern).symm

theorem openFile_ends (p : Path) (o : Opening) (hl : files.spelledPlace p = l) :
    Ends (openFile p o) files
      (fun h after => h = found l o (after.databaseAt l) ∧ Around l files after ∧
        (files.databaseAt l).migrate = .ok (after.databaseAt l))
      (fun e after => e.isOfDatabase ∧ Around l files after ∧ after.databaseAt l = files.databaseAt l) := by
  unfold Ends
  rw [openFile_eq]
  cases hplace : files.databasePlace? p with
  | none => exact ⟨rfl, .refl _, rfl⟩
  | some k =>
    obtain ⟨rfl, hne, htail⟩ := databasePlace?_some hplace
    rw [hl] at hne htail ⊢
    dsimp only
    split_ifs
    · exact ⟨rfl, .refl _, rfl⟩
    · exact openPlace_ends hne htail o

/-! ## Opening by name -/

variable {name : Path}

theorem homeOf?_eq_some : files.homeOf? name = some l ↔
    ∃ p o, Address.ofName? name.text = some (.file p o) ∧ files.spelledPlace p = l := by
  unfold homeOf?
  constructor
  · intro h
    split at h
    next p o haddress => exact ⟨p, o, haddress, Option.some.inj h⟩
    next => cases h
  · rintro ⟨p, o, haddress, rfl⟩
    rw [haddress]

theorem openAt_of_file {p : Path} {o : Opening} (haddress : Address.ofName? name.text = some (.file p o))
    (files : FileSystem) : openAt name files =
      if name.text.toList.contains '\x00' then .error (.sql "a path holds no NUL character") files
      else openFile p o files := by
  unfold openAt
  rw [haddress]
  split_ifs
  · rfl
  · rfl

theorem openAt_ends (hl : files.homeOf? name = some l) :
    Ends (openAt name) files
      (fun h after => (∃ p o, Address.ofName? name.text = some (.file p o) ∧ h = found l o (after.databaseAt l)) ∧
        Around l files after ∧ (files.databaseAt l).migrate = .ok (after.databaseAt l))
      (fun e after => e.isOfDatabase ∧ Around l files after ∧ after.databaseAt l = files.databaseAt l) := by
  obtain ⟨p, o, haddress, hp⟩ := homeOf?_eq_some.1 hl
  unfold Ends
  rw [openAt_of_file haddress]
  split_ifs
  · exact ⟨rfl, .refl _, rfl⟩
  · refine (openFile_ends p o hp).imp ?_ fun _ _ h => h
    exact fun h after ⟨hh, hafter⟩ => ⟨⟨p, o, haddress, hh⟩, hafter⟩

theorem openAt_ends_of_none (hl : files.homeOf? name = none) :
    Ends (openAt name) files
      (fun h after => (∃ d, h = .memory d) ∧ (Address.ofName? name.text).isSome ∧ after = files)
      (fun e after => e.isOfDatabase ∧ after = files) := by
  unfold homeOf? at hl
  unfold openAt
  split_ifs
  · exact .bind ⟨rfl, rfl⟩
  · cases haddress : Address.ofName? name.text with
    | none => exact ⟨rfl, rfl⟩
    | some address => cases address with
      | file p o => rw [haddress] at hl; cases hl
      | own writable => cases writable with
        | true => exact ⟨⟨_, rfl⟩, rfl, rfl⟩
        | false => exact ⟨rfl, rfl⟩

theorem homeOf?_eq {before : FileSystem} (hcurrent : files.current = before.current) (name : Path) :
    files.homeOf? name = before.homeOf? name := by
  simp only [homeOf?, spelledPlace_congr hcurrent]

/-! ## Recording -/

/-- **A run is recorded by one change of the database**, and one that fails leaves all as it was. -/
theorem insertRun_eq {h : Handle} (hwritable : h.writable = true) (run : NewRun) (output : BatchOutput) :
    h.insertRun run output = (do
      match (h.database (← get)).insertRun run output with
      | .ok (id, d) => return (id, ← h.save d)
      | .error e => throw e) := by
  unfold insertRun carryOut
  rw [hwritable]
  refine bind_congr fun files => ?_
  have hrun := Database.insertRun_run (h.database files) run output
  rw [← Database.insertRun_eq_addRun] at hrun
  dsimp only
  rw [hrun]
  cases (h.database files).insertRun run output with
  | ok r => rfl
  | error e => exact if_neg (not_not_intro rfl)

theorem insertRun_of_not_writable {h : Handle} (hwritable : h.writable = false) (run : NewRun) (output : BatchOutput) :
    h.insertRun run output = refuse "attempt to write a readonly database" := by
  unfold insertRun carryOut
  rw [hwritable]
  rfl

theorem insertRun_ends (writable : Bool) (run : NewRun) (output : BatchOutput) :
    Ends (insertRun (.file l writable) run output) files
      (fun r after => r.2 = .file l writable ∧ Around l files after ∧
        (files.databaseAt l).insertRun run output = .ok (r.1, after.databaseAt l))
      (fun e after => e.isOfDatabase ∧ after = files) := by
  cases writable with
  | false =>
    rw [insertRun_of_not_writable rfl]
    exact ⟨rfl, rfl⟩
  | true =>
    have hat : database files (.file l true) = files.databaseAt l := rfl
    rw [insertRun_eq rfl]
    refine .bind (ends_get.2 ?_)
    rw [hat]
    cases hinsert : (files.databaseAt l).insertRun run output with
    | error e => exact ⟨Database.isOfDatabase_of_insertRun hinsert, rfl⟩
    | ok r =>
      obtain ⟨content, executable, hfile⟩ := exists_file_of_databaseAt_ne (Database.ne_blank_of_insertRun hinsert)
      refine .bind ((save_ends hfile r.2 true).imp ?_ fun _ _ h => h)
      rintro h after ⟨rfl, haround, hat⟩
      exact ⟨rfl, haround, by rw [hat]⟩

theorem insertRun_ends_found (o : Opening) (d : Database) (run : NewRun) (output : BatchOutput) :
    Ends (insertRun (found l o d) run output) files
      (fun r after => r.2 = .file l o.writable ∧ Around l files after ∧
        (files.databaseAt l).insertRun run output = .ok (r.1, after.databaseAt l))
      (fun e after => e.isOfDatabase ∧ after = files) := by
  cases hfrozen : o.frozen with
  | true =>
    rw [found_of_frozen hfrozen, insertRun_of_not_writable rfl]
    exact ⟨rfl, rfl⟩
  | false =>
    rw [found_of_not_frozen hfrozen]
    exact insertRun_ends o.writable run output

theorem insertRun_ends_memory (d : Database) (run : NewRun) (output : BatchOutput) :
    Ends (insertRun (.memory d) run output) files
      (fun r after => (∃ d', r.2 = .memory d' ∧ d.insertRun run output = .ok (r.1, d')) ∧ after = files)
      (fun e after => e.isOfDatabase ∧ after = files) := by
  have hd : database files (.memory d) = d := rfl
  rw [insertRun_eq rfl]
  refine .bind (ends_get.2 ?_)
  rw [hd]
  cases hinsert : d.insertRun run output with
  | error e => exact ⟨Database.isOfDatabase_of_insertRun hinsert, rfl⟩
  | ok r => exact ⟨⟨r.2, rfl, rfl⟩, rfl⟩

/-- **Recording a run, wherever the database is kept**: its holder sees what `Database.insertRun` says. -/
theorem database_of_insertRun {h h' : Handle} {run : NewRun} {output : BatchOutput} {id : Int64} {after : FileSystem}
    (hinsert : h.insertRun run output files = .ok (id, h') after) :
    (h.database files).insertRun run output = .ok (id, h'.database after) := by
  cases h with
  | file l writable =>
    obtain ⟨rfl, -, hdatabase⟩ := (insertRun_ends writable run output).of_ok hinsert
    exact hdatabase
  | memory d =>
    obtain ⟨⟨d', rfl, hdatabase⟩, -⟩ := (insertRun_ends_memory d run output).of_ok hinsert
    exact hdatabase
  | frozen d =>
    rw [insertRun_of_not_writable rfl] at hinsert
    cases hinsert

theorem eq_of_insertRun_error {h : Handle} {run : NewRun} {output : BatchOutput} {e : StoreError} {after : FileSystem}
    (herror : h.insertRun run output files = .error e after) : after = files := by
  cases h with
  | file l writable => exact ((insertRun_ends writable run output).of_error herror).2
  | memory d => exact ((insertRun_ends_memory d run output).of_error herror).2
  | frozen d =>
    rw [insertRun_of_not_writable rfl] at herror
    cases herror
    rfl

end Handle
end SourceSlice
