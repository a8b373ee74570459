import SourceSlice.Proofs.Results.Opening
/-!
# Versions of databases

Opening is to connect to a database and then to bring it to the current version (`openAt_eq_connect`).  What connecting
reaches is the database of the name as it was (`Connected`), and its own errors have nothing to do with versions
(`refuses_connect`).  The rest depends on the version alone: above the current one the database is refused, at zero it
gets its tables, and otherwise it is taken as it is.

That is also done to a version below the oldest one there is, so a database that is connected to gets what opening owes
to it (`Guarded`) exactly from the oldest version on (`guarded_iff_oldestVersion_le`).
-/
namespace SourceSlice

def Store.Supported (v : Int32) : Prop := oldestVersion ≤ v ∧ v ≤ currentVersion

namespace Handle

open FileSystem Work

variable {files reached after : FileSystem} {l : Location} {name : Path} {h : Handle} {d : Database}

/-! ## Connecting -/

def connectFile (p : Path) (o : Opening) : Storing (Handle × Database) := do
  let before ← get
  let l ← orRefuse "unable to open database file" (before.databasePlace? p)
  if o.pattern.any fun p => !(before.find p matches .ok _) then refuse "disk I/O error"
  let content ← contentAt l o
  if !o.frozen then settle l content.isUnwritten o.writable
  let d ← orRefuse "file is not a database" content.database?
  return (found l o d, d)

/-- **Connects to a database** and tells what it is, whatever its version. -/
def connect (name : Path) : Storing (Handle × Database) := do
  if name.text.toList.contains '\x00' then refuse "a path holds no NUL character"
  match Address.ofName? name.text with
  | none => refuse "the address is mistaken"
  | some (.own true) => return (.memory .blank, .blank)
  | some (.own false) => refuse "attempt to write a readonly database"
  | some (.file p o) => connectFile p o

theorem openFile_eq_connectFile (p : Path) (o : Opening) :
    openFile p o = connectFile p o >>= fun (h, d) => h.migrated d := by
  unfold openFile connectFile
  simp only [bind_assoc]
  refine bind_congr fun before => bind_congr fun l => ?_
  -- the condition on the pattern is one and the same on both sides
  split_ifs <;> try contradiction
  all_goals simp only [bind_assoc, pure_bind]

/-- **Opening is connecting, and bringing what is there to the current version.** -/
theorem openAt_eq_connect (name : Path) : openAt name = connect name >>= fun (h, d) => h.migrated d := by
  unfold openAt connect
  dsimp only
  split_ifs
  · rfl
  · cases Address.ofName? name.text with
    | none => rfl
    | some address => cases address with
      | own writable => cases writable <;> rfl
      | file p o => exact openFile_eq_connectFile p o

/-! ## What is connected to -/

def Refuses {α : Type} (work : Storing α) : Prop :=
  ∀ files, Ends work files (fun _ _ => True) fun e _ => ∃ detail, e = .sql detail

namespace Refuses

variable {α β : Type} {work : Storing α} {next : α → Storing β}

theorem pure (a : α) : Refuses (Pure.pure a) := fun _ => trivial

theorem get : Refuses MonadState.get := fun _ => trivial

theorem set (files : FileSystem) : Refuses (MonadStateOf.set files) := fun _ => trivial

theorem refuse (detail : String) : Refuses (Handle.refuse detail : Storing α) := fun _ => ⟨detail, rfl⟩

theorem orRefuse (detail : String) (x : Option α) : Refuses (Handle.orRefuse detail x) := by
  cases x with
  | none => exact .refuse detail
  | some a => exact .pure a

theorem bind (hwork : Refuses work) (hnext : ∀ a, Refuses (next a)) : Refuses (work >>= next) :=
  fun files => .bind ((hwork files).imp (fun a t _ => hnext a t) fun _ _ h => h)

end Refuses

theorem refuses_contentAt (l : Location) (o : Opening) : Refuses (contentAt l o) := by
  refine .bind .get fun files => ?_
  split
  next => exact .pure _
  next => exact .refuse _
  next =>
    split_ifs
    · exact .bind (fun _ => trivial) fun _ => .pure _
    · exact .refuse _

theorem refuses_settle (l : Location) (unwritten writable : Bool) : Refuses (settle l unwritten writable) :=
  .bind .get fun _ => .bind (.orRefuse _ _) fun _ => .bind (.set _) fun _ =>
    .bind .get fun _ => .bind (.orRefuse _ _) fun _ => .set _

theorem refuses_connectFile (p : Path) (o : Opening) : Refuses (connectFile p o) := by
  have hread (l : Location) (content : Content) : Refuses do
      let d ← orRefuse "file is not a database" content.database?
      return (found l o d, d) := .bind (.orRefuse _ _) fun _ => .pure _
  refine .bind .get fun before => .bind (.orRefuse _ _) fun l => ?_
  dsimp only
  split_ifs
  · exact .bind (.refuse _) fun _ => .bind (refuses_contentAt l o) fun _ =>
      .bind (refuses_settle _ _ _) fun _ => hread l _
  · exact .bind (.refuse _) fun _ => .bind (refuses_contentAt l o) fun _ => hread l _
  · exact .bind (refuses_contentAt l o) fun _ => .bind (refuses_settle _ _ _) fun _ => hread l _
  · exact .bind (refuses_contentAt l o) fun _ => hread l _

theorem refuses_connect (name : Path) : Refuses (connect name) := by
  unfold connect
  dsimp only
  split_ifs
  · exact fun _ => ⟨_, rfl⟩
  · split
    next => exact .refuse _
    next => exact .pure _
    next => exact .refuse _
    next p o _ => exact refuses_connectFile p o

structure Found (files : FileSystem) (l : Location) (content : Content) (reached : FileSystem) : Prop where
  file : ∃ executable, reached.node? l = some (.file content executable)
  database : reached.databaseAt l = files.databaseAt l
  kept : files.node? l ≠ none → reached.node? l = files.node? l

theorem Found.of_node?_eq {content : Content} (h : Found files l content reached)
    (hnode : after.node? l = reached.node? l) : Found files l content after where
  file := by rw [hnode]; exact h.file
  database := (databaseAt_eq hnode).trans h.database
  kept hfile := hnode.trans (h.kept hfile)

/-- **What is connected to**: the database in the file of a name, or a new one that its holder keeps. -/
inductive Connected (files : FileSystem) (name : Path) : Handle → Database → FileSystem → Prop where
  | file {l : Location} {content : Content} {reached : FileSystem} (o : Opening)
      (home : files.homeOf? name = some l) (there : Found files l content reached) :
      Connected files name (found l o (files.databaseAt l)) (files.databaseAt l) reached
  | own (home : files.homeOf? name = none) : Connected files name (.memory .blank) .blank files

theorem connectFile_ends (p : Path) (o : Opening) (hl : files.spelledPlace p = l) :
    Ends (connectFile p o) files (fun r after => r = (found l o (files.databaseAt l), files.databaseAt l) ∧
      ∃ content, Found files l content after) fun _ _ => True := by
  have hread {content : Content} {t : FileSystem} (hfound : Found files l content t) :
      Ends (do
          let d ← orRefuse "file is not a database" content.database?
          return (found l o d, d)) t
        (fun r after => r = (found l o (files.databaseAt l), files.databaseAt l) ∧
          ∃ content, Found files l content after) fun _ _ => True := by
    refine .bind (ends_orRefuse (fun d hd => ?_) fun _ => trivial)
    obtain ⟨executable, hnode⟩ := hfound.file
    obtain rfl : d = files.databaseAt l := by
      rw [← hfound.database, databaseAt_of_file hnode, hd]
      rfl
    exact ⟨rfl, content, hfound⟩
  unfold connectFile
  refine .bind (ends_get.2 (.bind (ends_orRefuse (fun k hk => ?_) fun _ => trivial)))
  obtain ⟨hplace, hne, htail⟩ := databasePlace?_some hk
  rw [hplace, hl] at hne htail ⊢
  have hcontent : Ends (contentAt l o) files (fun content after => Found files l content after) fun _ _ => True :=
    (contentAt_ends (fun _ => htail) o).imp (fun _ _ ⟨_, hat, hfile, hkept⟩ => ⟨hfile, hat, hkept⟩) fun _ _ _ => trivial
  dsimp only
  split_ifs
  · exact .bind trivial
  · exact .bind trivial
  · refine .bind (hcontent.imp (fun content made hfound => ?_) fun _ _ h => h)
    refine .bind ((settle_ends hne content.isUnwritten o.writable).imp ?_ fun _ _ _ => trivial)
    rintro _ settled ⟨-, hnode⟩
    exact hread (hfound.of_node?_eq hnode)
  · exact .bind (hcontent.imp (fun content made hfound => hread hfound) fun _ _ h => h)

theorem connected_of_connect (hconnect : connect name files = .ok (h, d) reached) :
    Connected files name h d reached := by
  have hends : Ends (connect name) files (fun r after => Connected files name r.1 r.2 after) fun _ _ => True := by
    unfold connect
    dsimp only
    split_ifs
    · trivial
    · split
      next => trivial
      next haddress => exact .own (by rw [homeOf?, haddress])
      next => trivial
      next p o haddress =>
        refine (connectFile_ends p o rfl).imp ?_ fun _ _ h => h
        rintro _ t ⟨rfl, content, hfound⟩
        exact .file o (by rw [homeOf?, haddress]) hfound
  exact hends.of_ok hconnect

theorem Connected.database_eq (hc : Connected files name h d reached) : h.database reached = d := by
  cases hc with
  | file o home there =>
    rw [← there.database]
    exact database_found reached _ o
  | own home => rfl

/-! ## What becomes of a version -/

theorem refuses_save (d : Database) (h : Handle) : Refuses (h.save d) := by
  cases h with
  | file l writable => cases writable with
    | true => exact .bind .get fun _ => .bind (.orRefuse _ _) fun _ => .bind (.set _) fun _ => .pure _
    | false => exact .refuse _
  | memory _ => exact .pure _
  | frozen _ => exact .refuse _

theorem Connected.database_save {new : Database} {h' : Handle} (hc : Connected files name h d reached)
    (hsave : h.save new reached = .ok h' after) : h'.database after = new := by
  cases hc with
  | file o home there =>
    obtain ⟨executable, hnode⟩ := there.file
    cases hfrozen : o.frozen with
    | true =>
      rw [found_of_frozen hfrozen] at hsave
      cases hsave
    | false =>
      rw [found_of_not_frozen hfrozen] at hsave
      obtain ⟨rfl, -, hat⟩ := (save_ends hnode new o.writable).of_ok hsave
      exact hat
  | own home =>
    cases hsave
    rfl

theorem migrated_of_newer (hversion : Store.currentVersion < d.version) :
    h.migrated d files = .error (.unsupportedVersion d.version) files := by
  rw [migrated, Database.migrate, if_pos hversion]
  rfl

theorem migrated_of_ok {new : Database} (hmigrate : d.migrate = .ok new) (hversion : d.version = 0) :
    h.migrated d = h.save new := by
  rw [migrated, hmigrate]
  exact if_pos hversion

theorem migrated_of_other (hnot : ¬ Store.currentVersion < d.version) (hversion : d.version ≠ 0) :
    h.migrated d files = .ok h files := by
  rw [migrated, Database.migrate, if_neg hnot, if_neg hversion]
  dsimp only
  rw [if_neg hversion]
  rfl

theorem migrated_ends_of_zero (hversion : d.version = 0) : Ends (h.migrated d) files
    (fun h' after => h.save d.withTables files = .ok h' after) (fun e _ => ∃ detail, e = .sql detail) := by
  rcases d.migrate_cases with ⟨hnewer, -⟩ | ⟨-, hok⟩ | ⟨-, -, detail, herror⟩ | ⟨-, hother, -⟩
  · rw [hversion] at hnewer
    exact absurd hnewer (by decide)
  · rw [migrated_of_ok hok hversion]
    exact ((ends_self _ _).and (refuses_save _ h files)).imp (fun _ _ h => h.1) fun _ _ h => h.2
  · unfold migrated
    rw [herror]
    exact ⟨detail, rfl⟩
  · exact absurd hversion hother

theorem openAt_of_connect (hconnect : connect name files = .ok (h, d) reached) :
    openAt name files = h.migrated d reached := by
  rw [openAt_eq_connect, bind_of_ok hconnect]

/-- **Exactly the newer versions are refused**, and that is all that opening does to them. -/
theorem openAt_eq_unsupportedVersion_iff {v : Int32} : openAt name files = .error (.unsupportedVersion v) after ↔
    ∃ h d, connect name files = .ok (h, d) after ∧ d.version = v ∧ Store.currentVersion < v := by
  constructor
  · intro herror
    cases hconnect : connect name files with
    | error e t =>
      obtain ⟨detail, rfl⟩ := (refuses_connect name files).of_error hconnect
      rw [openAt_eq_connect, bind_of_error hconnect] at herror
      cases herror
    | ok r reached =>
      obtain ⟨h, d⟩ := r
      rw [openAt_of_connect hconnect] at herror
      by_cases hnewer : Store.currentVersion < d.version
      · rw [migrated_of_newer hnewer] at herror
        cases herror
        exact ⟨h, d, rfl, rfl, hnewer⟩
      · by_cases hzero : d.version = 0
        · obtain ⟨detail, hdetail⟩ := (migrated_ends_of_zero hzero).of_error herror
          cases hdetail
        · rw [migrated_of_other hnewer hzero] at herror
          cases herror
  · rintro ⟨h, d, hconnect, rfl, hnewer⟩
    rw [openAt_of_connect hconnect, migrated_of_newer hnewer]

/-- **What opening owes to a database whatever its version is**: it is refused exactly when its version is not
supported, and then its file is left alone, and when it opens it has the current version, its tables and its rows. -/
structure Guarded (name : Path) (files : FileSystem) (d : Database) : Prop where
  refused : (∃ after, openAt name files = .error (.unsupportedVersion d.version) after) ↔ ¬ Store.Supported d.version
  unchanged : ∀ v after, openAt name files = .error (.unsupportedVersion v) after →
    ∀ l, files.homeOf? name = some l → after.databaseAt l = files.databaseAt l ∧
      (files.node? l ≠ none → after.node? l = files.node? l)
  current : ∀ h after, openAt name files = .ok h after → (h.database after).version = Store.currentVersion
  tables : ∀ h after, openAt name files = .ok h after → d.version = 0 →
    (h.database after).runs = some d.runRows ∧ (h.database after).entries = some d.entryRows

theorem Connected.unchanged (hc : Connected files name h d reached) (hl : files.homeOf? name = some l) :
    reached.databaseAt l = files.databaseAt l ∧ (files.node? l ≠ none → reached.node? l = files.node? l) := by
  cases hc with
  | file o home there =>
    rw [hl] at home
    cases home
    exact ⟨there.database, there.kept⟩
  | own home =>
    rw [hl] at home
    cases home

theorem Connected.eq_databaseAt (hc : Connected files name h d reached) (hl : files.homeOf? name = some l) :
    d = files.databaseAt l := by
  cases hc with
  | file o home there =>
    rw [hl] at home
    cases home
    rfl
  | own home =>
    rw [hl] at home
    cases home

theorem openAt_of_negative (hconnect : connect name files = .ok (h, d) reached) (hversion : d.version < 0) :
    openAt name files = .ok h reached ∧ h.database reached = d := by
  have hzero : d.version ≠ 0 := fun e => Int32.lt_irrefl (e ▸ hversion)
  have hnewer : ¬ Store.currentVersion < d.version :=
    Int32.lt_asymm (Int32.lt_trans hversion (by decide))
  rw [openAt_of_connect hconnect, migrated_of_other hnewer hzero]
  exact ⟨rfl, (connected_of_connect hconnect).database_eq⟩

theorem not_guarded_of_negative (hconnect : connect name files = .ok (h, d) reached) (hversion : d.version < 0) :
    ¬ Guarded name files d := by
  intro hguarded
  obtain ⟨hopen, hd⟩ := openAt_of_negative hconnect hversion
  have hcurrent := hguarded.current h reached hopen
  rw [hd] at hcurrent
  rw [hcurrent] at hversion
  exact absurd hversion (by decide)

theorem eq_currentVersion {v : Int32} (hversion : 0 ≤ v) (hzero : v ≠ 0) (hnewer : ¬ Store.currentVersion < v) :
    v = Store.currentVersion := by
  have hone : Store.currentVersion.toInt = 1 := by decide
  have hle := Int32.le_iff_toInt_le.1 hversion
  rw [ne_eq, ← Int32.toInt_inj] at hzero
  rw [Int32.lt_iff_toInt_lt] at hnewer
  rw [Int32.toInt_zero] at hle hzero
  exact Int32.toInt_inj.1 (by omega)

theorem openAt_of_zero {h' : Handle} (hconnect : connect name files = .ok (h, d) reached) (hzero : d.version = 0)
    (hopen : openAt name files = .ok h' after) : h'.database after = d.withTables := by
  rw [openAt_of_connect hconnect] at hopen
  exact (connected_of_connect hconnect).database_save ((migrated_ends_of_zero hzero).of_ok hopen)

theorem guarded_of_nonnegative (hconnect : connect name files = .ok (h, d) reached) (hfree : d.NamesFree)
    (hversion : 0 ≤ d.version) : Guarded name files d where
  refused := by
    have hiff : (∃ after, openAt name files = .error (.unsupportedVersion d.version) after) ↔
        Store.currentVersion < d.version := by
      constructor
      · rintro ⟨after, herror⟩
        obtain ⟨-, -, -, -, hnewer⟩ := openAt_eq_unsupportedVersion_iff.1 herror
        exact hnewer
      · exact fun hnewer => ⟨reached, openAt_eq_unsupportedVersion_iff.2 ⟨h, d, hconnect, rfl, hnewer⟩⟩
    rw [hiff, Store.Supported, not_and, ← Int32.not_le]
    exact ⟨fun hnot _ => hnot, fun hall => hall hversion⟩
  unchanged v after herror l hl := by
    obtain ⟨h', d', hconnect', -, -⟩ := openAt_eq_unsupportedVersion_iff.1 herror
    exact (connected_of_connect hconnect').unchanged hl
  current h' after hopen := by
    by_cases hzero : d.version = 0
    · rw [openAt_of_zero hconnect hzero hopen]
      rfl
    · rw [openAt_of_connect hconnect] at hopen
      by_cases hnewer : Store.currentVersion < d.version
      · rw [migrated_of_newer hnewer] at hopen
        cases hopen
      · rw [migrated_of_other hnewer hzero] at hopen
        cases hopen
        rw [(connected_of_connect hconnect).database_eq]
        exact eq_currentVersion hversion hzero hnewer
  tables h' after hopen hzero := by
    rw [openAt_of_zero hconnect hzero hopen]
    exact ⟨Database.withTable_of_free hfree.1 _, Database.withTable_of_free hfree.2 _⟩

/-- **A database of which all is known**, and whose tables have their names for themselves. -/
structure Plain (name : Path) (files : FileSystem) (d : Database) : Prop where
  known : ∀ l, files.homeOf? name = some l → files.Known l
  free : d.NamesFree

/-- **Versions from the oldest on are guarded.**  Opening refuses the newer versions and no other.  So a database that
is connected to gets what opening owes to it exactly from the oldest version on, and below that it opens as it is.
Where something else bears the name of a table, a database without its tables still gets the other one. -/
theorem guarded_iff_oldestVersion_le (name : Path) (files : FileSystem) :
    (∀ v after, openAt name files = .error (.unsupportedVersion v) after ↔
      ∃ h d, connect name files = .ok (h, d) after ∧ d.version = v ∧ Store.currentVersion < v) ∧
    ∀ h d reached, connect name files = .ok (h, d) reached →
      (∀ l, files.homeOf? name = some l → d = files.databaseAt l) ∧
      (Plain name files d → (Guarded name files d ↔ Store.oldestVersion ≤ d.version)) ∧
      (d.version < Store.oldestVersion → openAt name files = .ok h reached ∧ h.database reached = d) ∧
      (d.version = 0 → ∀ h' after, openAt name files = .ok h' after → h'.database after = d.withTables) := by
  refine ⟨fun v after => openAt_eq_unsupportedVersion_iff,
    fun h d reached hconnect => ⟨fun l hl => ?_, fun hplain => ⟨?_, ?_⟩, ?_, ?_⟩⟩
  · exact (connected_of_connect hconnect).eq_databaseAt hl
  · intro hguarded
    by_contra hnegative
    exact not_guarded_of_negative hconnect (Int32.not_le.1 hnegative) hguarded
  · exact guarded_of_nonnegative hconnect hplain.free
  · exact openAt_of_negative hconnect
  · exact fun hzero h' after hopen => openAt_of_zero hconnect hzero hopen

/-- A database of the version after the current one. -/
theorem guarded_of_newer_version :
    let d : Database := ⟨2, some [], some [], 0, []⟩
    let files : FileSystem := ⟨[(["r.db"], .file (.database d) false)], []⟩
    connect ⟨"r.db"⟩ files = .ok (.file ["r.db"] true, d) files ∧ Plain ⟨"r.db"⟩ files d ∧
      Guarded ⟨"r.db"⟩ files d := by
  intro d files
  have hconnect : connect ⟨"r.db"⟩ files = .ok (.file ["r.db"] true, d) files := by rfl
  have hplain : Plain ⟨"r.db"⟩ files d := by
    refine ⟨fun l hl => ?_, by decide⟩
    obtain rfl : ["r.db"] = l := Option.some.inj hl
    decide +kernel
  obtain ⟨-, hall⟩ := guarded_iff_oldestVersion_le ⟨"r.db"⟩ files
  obtain ⟨-, hiff, -⟩ := hall _ _ _ hconnect
  exact ⟨hconnect, hplain, (hiff hplain).2 (by decide)⟩

/-- A database of the version before the oldest one: it opens, and keeps its version. -/
theorem not_guarded_before_oldest_version :
    let d : Database := ⟨-1, some [], some [], 0, []⟩
    let files : FileSystem := ⟨[(["r.db"], .file (.database d) false)], []⟩
    Plain ⟨"r.db"⟩ files d ∧ ¬ Store.Supported d.version ∧
      openAt ⟨"r.db"⟩ files = .ok (.file ["r.db"] true) files ∧
      files.databaseAt ["r.db"] = d ∧ ¬ Guarded ⟨"r.db"⟩ files d := by
  intro d files
  have hconnect : connect ⟨"r.db"⟩ files = .ok (.file ["r.db"] true, d) files := by rfl
  have hplain : Plain ⟨"r.db"⟩ files d := by
    refine ⟨fun l hl => ?_, by decide⟩
    obtain rfl : ["r.db"] = l := Option.some.inj hl
    decide +kernel
  have hnegative : d.version < 0 := by decide
  have hsupported : ¬ Store.Supported d.version := fun h => absurd h.1 (by decide)
  exact ⟨hplain, hsupported, (openAt_of_negative hconnect hnegative).1, rfl, not_guarded_of_negative hconnect hnegative⟩

/-- A view that bears the name of the runs: the database opens at the current version without a table of them. -/
example :
    let d : Database := { Database.blank with others := [⟨"slice_runs", false⟩] }
    let files : FileSystem := ⟨[(["r.db"], .file (.database d) false)], []⟩
    (match openAt ⟨"r.db"⟩ files with
    | .ok h after => some (h.database after)
    | .error .. => none) = some { d with version := 1, entries := some [] } := by decide +kernel

end Handle
end SourceSlice
