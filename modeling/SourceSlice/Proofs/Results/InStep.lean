import SourceSlice.Proofs.FileSystem.Trail
import SourceSlice.Proofs.Results.Opening
/-!
# Databases in step

A database is opened and a run recorded in it without a look at any place but those of its path, its own files and the
pattern it is to be like (`AvoidsDatabase`).  So two runs in trees that agree there stay in step (`keepsStep_openAt`),
and recording runs that differ in their times alone leaves two databases that differ in the times of the run recorded
last (`insertRun_both`).
-/
namespace SourceSlice

/-! ## Other times -/

def NewRun.retimed (startedAt finishedAt : String) (run : NewRun) : NewRun := { run with startedAt, finishedAt }

namespace Database

def retimeLast (startedAt finishedAt : String) (rows : List RunRow) : List RunRow :=
  rows.dropLast ++ (rows.getLast?.map fun r => { r with startedAt, finishedAt }).toList

def retimed (startedAt finishedAt : String) (d : Database) : Database :=
  { d with runs := d.runs.map (retimeLast startedAt finishedAt) }

theorem ne_blank_of_migrate {d new : Database} (h : d.migrate = .ok new) : new ≠ .blank := by
  rintro rfl
  rcases migrate_eq_ok h with ⟨-, hnew⟩ | ⟨-, hversion, rfl⟩
  · cases congrArg Database.version hnew
  · exact hversion rfl

section Retimed

variable (startedAt finishedAt : String)

/-- A change after which the times of the run recorded last may be changed, or before it. -/
def KeepsTimes {α : Type} (change : StateT Database (Except StoreError) α) : Prop := ∀ d : Database,
  change (d.retimed startedAt finishedAt) = (change d).map fun r => (r.1, r.2.retimed startedAt finishedAt)

theorem ids_retimed (d : Database) :
    (d.retimed startedAt finishedAt).runRows.map (·.id) = d.runRows.map (·.id) := by
  unfold retimed runRows
  cases d.runs with
  | none => rfl
  | some runs =>
    change (retimeLast startedAt finishedAt runs).map (·.id) = runs.map (·.id)
    rcases List.eq_nil_or_concat runs with rfl | ⟨before, last, rfl⟩
    · rfl
    · rw [List.concat_eq_append, retimeLast, List.dropLast_concat, List.getLast?_concat, List.map_append,
        List.map_append]
      rfl

theorem keepsTimes_insertEntry (e : EntryRow) : KeepsTimes startedAt finishedAt (insertEntry e) := by
  intro d
  have hany (rows : List RunRow) : rows.any (·.id = e.run) = (rows.map (·.id)).any (· = e.run) := by
    rw [List.any_map]
    rfl
  have hentries : (d.retimed startedAt finishedAt).entries = d.entries := rfl
  unfold insertEntry
  rw [hany, ids_retimed, ← hany, hentries]
  cases d.entries with
  | none => rfl
  | some entries =>
    dsimp only
    split_ifs
    · rfl
    · rfl
    · rfl

theorem keepsTimes_addEntries : ∀ es : List EntryRow, KeepsTimes startedAt finishedAt (addEntries es)
  | [] => fun _ => rfl
  | e :: es => by
    intro d
    have hstep := keepsTimes_insertEntry startedAt finishedAt e d
    cases hinsert : insertEntry e d with
    | error error =>
      rw [hinsert] at hstep
      rw [addEntries_cons_of_error hstep, addEntries_cons_of_error hinsert]
      rfl
    | ok r =>
      rw [hinsert] at hstep
      rw [addEntries_cons_of_ok hstep, addEntries_cons_of_ok hinsert, keepsTimes_addEntries es r.2]

theorem keepsTimes_addSlices (id : Int64) (output : BatchOutput) :
    KeepsTimes startedAt finishedAt (addSlices id output) := by
  intro d
  have hsteps (d : Database) :
      addSlices id output d = prepareEntries d >>= fun p => addEntries (newEntries id output) p.2 := rfl
  have hentries : (d.retimed startedAt finishedAt).entries = d.entries := rfl
  rw [hsteps, hsteps, prepareEntries, prepareEntries, hentries]
  split_ifs
  · rfl
  · exact keepsTimes_addEntries startedAt finishedAt _ d

theorem insertRow_retimed (d : Database) (run : NewRun) (output : BatchOutput) :
    insertRow (run.retimed startedAt finishedAt) output d
      = (insertRow run output d).map fun r => (r.1, r.2.retimed startedAt finishedAt) := by
  unfold insertRow
  cases d.runs with
  | none => rfl
  | some runs => cases d.nextId? with
    | none => rfl
    | some id =>
      dsimp only
      split_ifs
      · rfl
      · have hlast : retimeLast startedAt finishedAt (runs ++ [newRow id run output])
            = runs ++ [newRow id (run.retimed startedAt finishedAt) output] := by
          rw [retimeLast, List.dropLast_concat, List.getLast?_concat]
          rfl
        simp only [Except.map, retimed, Option.map_some, hlast]

/-- **The times of a run are nothing but recorded.** -/
theorem insertRun_retimed (d : Database) (run : NewRun) (output : BatchOutput) :
    d.insertRun (run.retimed startedAt finishedAt) output
      = (d.insertRun run output).map fun r => (r.1, r.2.retimed startedAt finishedAt) := by
  have hsteps (run : NewRun) : addRun run output d = insertRow run output d >>= fun r =>
      addSlices r.1 output r.2 >>= fun q => .ok (r.1, q.2) := rfl
  rw [insertRun_eq_addRun, insertRun_eq_addRun, hsteps, hsteps, insertRow_retimed]
  cases insertRow run output d with
  | error e => rfl
  | ok r =>
    change (addSlices r.1 output (r.2.retimed startedAt finishedAt) >>= _) = (addSlices r.1 output r.2 >>= _).map _
    rw [keepsTimes_addSlices]
    cases addSlices r.1 output r.2 with
    | error e => rfl
    | ok q => rfl

end Retimed

end Database

namespace FileSystem

variable {places : Set Location} {a a' b : FileSystem} {l k : Location} {p : Path}

def databaseTrail : Location → List Path.Step → List Location
  | _, [] => []
  | l, .name n :: rest => l :: databaseTrail (n :: l) rest
  | l, s :: rest => databaseTrail (l.after s) rest

/-- **A database in whose opening none of these places is looked at.** -/
structure AvoidsDatabase (files : FileSystem) (places : Set Location) (p : Path) (o : Opening) : Prop where
  path : ∀ k ∈ databaseTrail (files.origin p) p.steps, k ∉ places
  directory : (files.spelledPlace p).tail ∉ places
  pattern : ∀ q ∈ o.pattern, files.Avoids places q
  own : ∀ k ∈ databasePlaces (files.spelledPlace p), k ∉ places

theorem AgreeOff.foldlM_databaseStep (h : AgreeOff places a b) : ∀ {steps : List Path.Step} {l : Location},
    (∀ k ∈ databaseTrail l steps, k ∉ places) → steps.foldlM b.databaseStep l = steps.foldlM a.databaseStep l
  | [], _, _ => rfl
  | s :: rest, l, htrail => by
    have hstep : b.databaseStep l s = a.databaseStep l s ∧ ∀ k ∈ databaseTrail (l.after s) rest, k ∉ places := by
      cases s with
      | here => exact ⟨rfl, htrail⟩
      | up => exact ⟨rfl, htrail⟩
      | name n =>
        rw [databaseTrail, List.forall_mem_cons] at htrail
        refine ⟨?_, htrail.2⟩
        rw [databaseStep, databaseStep, h.node l htrail.1]
    rw [List.foldlM_cons, List.foldlM_cons, hstep.1]
    cases hs : a.databaseStep l s with
    | none => rfl
    | some m =>
      obtain rfl := Handle.databaseStep_some hs
      exact h.foldlM_databaseStep hstep.2

theorem AgreeOff.databasePlace? (h : AgreeOff places a b)
    (hpath : ∀ k ∈ databaseTrail (a.origin p) p.steps, k ∉ places) (hdirectory : (a.spelledPlace p).tail ∉ places) :
    b.databasePlace? p = a.databasePlace? p := by
  rw [FileSystem.databasePlace?, FileSystem.databasePlace?, h.origin p, h.foldlM_databaseStep hpath]
  cases hsteps : p.steps.foldlM a.databaseStep (a.origin p) with
  | none => rfl
  | some m =>
    have htail : m.tail ∉ places := by
      rw [Handle.foldlM_databaseStep_some hsteps]
      exact hdirectory
    simp only [Option.bind_eq_bind, Option.bind_some, h.isDirectoryAt htail]

theorem AgreeOff.lacksPattern (h : AgreeOff places a b) {o : Opening} (havoids : ∀ q ∈ o.pattern, a.Avoids places q) :
    Handle.lacksPattern b o = Handle.lacksPattern a o := by
  unfold Handle.lacksPattern
  cases hpattern : o.pattern with
  | none => rfl
  | some q => simp only [Option.any_some, h.find (havoids q hpattern)]

theorem AgreeOff.leftoverAt (h : AgreeOff places a b) (hk : k ∉ places) : b.leftoverAt k = a.leftoverAt k := by
  rw [FileSystem.leftoverAt, FileSystem.leftoverAt, h.node k hk]

/-! ## Changes to the files of a database -/

structure Aside (places : Set Location) (l : Location) : Prop where
  ne_nil : l ≠ []
  off : ∀ k ∈ databasePlaces l, k ∉ places

theorem beside_ne_nil {mark : String} (hl : l ≠ []) : l.beside mark ≠ [] := by
  cases l with
  | nil => exact absurd rfl hl
  | cons name l => exact List.cons_ne_nil _ _

namespace InStep

variable (h : InStep places b a a') (hl : Aside places l)

include h hl

theorem clear {mark : String} (p : Prop) [Decidable p] :
    InStep places b (if p then a.erase (l.beside mark) else a) (if p then a'.erase (l.beside mark) else a') := by
  split
  · exact h.erase (beside_ne_nil hl.ne_nil)
  · exact h

theorem settleJournal (unwritten writable : Bool) :
    Option.Rel (InStep places b) (a.settleJournal l unwritten writable) (a'.settleJournal l unwritten writable) := by
  have hjournal := h.agreeOff.leftoverAt (hl.off _ (beside_journal_mem l))
  unfold FileSystem.settleJournal
  dsimp only
  rw [hjournal]
  cases a.leftoverAt (l.beside journalMark) with
  | nothing => exact .some h
  | directory => cases unwritten with
    | false => exact .none
    | true => exact .some h
  | spent => cases unwritten with
    | false => exact .some h
    | true => exact .some (h.clear hl _)
  | file => cases unwritten with
    | false => cases writable with
      | false => exact .none
      | true => exact .some (h.erase (beside_ne_nil hl.ne_nil))
    | true => exact .some (h.clear hl _)
  | live => cases unwritten with
    | false => exact .none
    | true => exact .some (h.clear hl _)

theorem settleLog (unwritten writable : Bool) :
    Option.Rel (InStep places b) (a.settleLog l unwritten writable) (a'.settleLog l unwritten writable) := by
  have hlog := h.agreeOff.leftoverAt (hl.off _ (beside_log_mem l))
  unfold FileSystem.settleLog
  dsimp only
  rw [hlog]
  cases a.leftoverAt (l.beside logMark) with
  | nothing => exact .some h
  | directory => exact .none
  | spent => exact .some (h.clear hl _)
  | file => exact .some (h.clear hl _)
  | live => cases unwritten with
    | false => exact .none
    | true => exact .some (h.erase (beside_ne_nil hl.ne_nil))

theorem writeDatabase?_cases : (∀ d, a.writeDatabase? l d = none ∧ a'.writeDatabase? l d = none) ∨
    ∃ m m' executable, InStep places b m m' ∧ ∀ d,
      a.writeDatabase? l d = some (m.put l (.file (.database d) executable)) ∧
      a'.writeDatabase? l d = some (m'.put l (.file (.database d) executable)) := by
  have hjournal := h.agreeOff.isDirectoryAt (hl.off _ (beside_journal_mem l))
  have hexecutable := h.agreeOff.executableAt (hl.off l (Set.mem_insert _ _))
  unfold FileSystem.writeDatabase?
  dsimp only
  rw [hjournal, hexecutable]
  split
  · exact .inl fun _ => ⟨rfl, rfl⟩
  · exact .inr ⟨_, _, _, h.erase (beside_ne_nil hl.ne_nil), fun _ => ⟨rfl, rfl⟩⟩

theorem writeDatabase? (d : Database) :
    Option.Rel (InStep places b) (a.writeDatabase? l d) (a'.writeDatabase? l d) := by
  rcases h.writeDatabase?_cases hl with hnone | ⟨m, m', executable, hm, hsome⟩
  · rw [(hnone d).1, (hnone d).2]
    exact .none
  · rw [(hsome d).1, (hsome d).2]
    exact .some (hm.put hl.ne_nil _ _)

omit hl

theorem avoidsDatabase {o : Opening} (havoids : b.AvoidsDatabase places p o) : a.AvoidsDatabase places p o := by
  have horigin := origin_congr h.current p
  have hplace := spelledPlace_congr h.current p
  refine ⟨?_, ?_, fun q hq => h.avoids (havoids.pattern q hq), ?_⟩
  · rw [horigin]
    exact havoids.path
  · rw [hplace]
    exact havoids.directory
  · rw [hplace]
    exact havoids.own

end InStep

/-! ## The same but for times -/

/-- **The same but for times**: those of the run that was recorded last in a database. -/
inductive SameButTimes : Option Node → Option Node → Prop where
  | same (n : Option Node) : SameButTimes n n
  | retimed (d : Database) (executable : Bool) (startedAt finishedAt : String) :
    SameButTimes (some (.file (.database d) executable))
      (some (.file (.database (d.retimed startedAt finishedAt)) executable))

/-- **Two trees agree off some places but for times.** -/
def AgreeButTimes (places : Set Location) (a b : FileSystem) : Prop :=
  ∀ k ∉ places, SameButTimes (a.node? k) (b.node? k)

theorem AgreeOff.butTimes (h : AgreeOff places a b) : AgreeButTimes places a b := by
  intro k hk
  rw [h.node k hk]
  exact .same _

theorem AgreeOff.butTimes_put (h : AgreeOff places a b) (hl : l ≠ []) (d : Database) (executable : Bool)
    (startedAt finishedAt : String) :
    AgreeButTimes places (a.put l (.file (.database d) executable))
      (b.put l (.file (.database (d.retimed startedAt finishedAt)) executable)) := by
  intro k hk
  rw [node?_put a l k _ hl, node?_put b l k _ hl]
  split
  · exact .retimed d executable startedAt finishedAt
  · exact h.butTimes k hk

end FileSystem

namespace Handle

open FileSystem Work

variable {α β : Type} {places : Set Location} {a a' b : FileSystem} {l : Location}

def replaceFiles (detail : String) (f : FileSystem → Option FileSystem) : Storing Unit := do
  set (← orRefuse detail (f (← get)))

/-- **Work that keeps two runs in step**, with one and the same result or error. -/
def KeepsStep (places : Set Location) (b : FileSystem) (work : Storing α) : Prop := ∀ a a', InStep places b a a' →
  Both work work a a' (fun x t x' t' => x' = x ∧ InStep places b t t') (InStep places b)

namespace KeepsStep

variable {work : Storing α} {next : α → Storing β}

theorem pure (x : α) : KeepsStep places b (Pure.pure x) := fun _ _ h => ⟨rfl, h⟩

theorem refuse (detail : String) : KeepsStep places b (Handle.refuse detail : Storing α) := fun _ _ h => ⟨rfl, h⟩

theorem orRefuse (detail : String) (x : Option α) : KeepsStep places b (Handle.orRefuse detail x) := by
  cases x with
  | none => exact .refuse detail
  | some x => exact .pure x

theorem bind (hwork : KeepsStep places b work) (hnext : ∀ x, KeepsStep places b (next x)) :
    KeepsStep places b (work >>= next) := by
  intro a a' h
  refine .bind ((hwork a a' h).imp ?_ fun _ _ h => h)
  rintro x t x' t' ⟨rfl, ht⟩
  exact hnext x' t t' ht

theorem ite {p : Prop} [Decidable p] {work' : Storing α} (h : KeepsStep places b work) (h' : KeepsStep places b work') :
    KeepsStep places b (if p then work else work') := by
  split
  · exact h
  · exact h'

theorem replaceFiles (detail : String) {f : FileSystem → Option FileSystem}
    (hf : ∀ a a', InStep places b a a' → Option.Rel (InStep places b) (f a) (f a')) :
    KeepsStep places b (Handle.replaceFiles detail f) := by
  intro a a' h
  have hrel := hf a a' h
  unfold Handle.replaceFiles
  refine Work.both_get_bind.2 ?_
  cases hx : f a with
  | none => cases hx' : f a' with
    | none => exact ⟨rfl, h⟩
    | some t' => rw [hx, hx'] at hrel; cases hrel
  | some t => cases hx' : f a' with
    | none => rw [hx, hx'] at hrel; cases hrel
    | some t' =>
      rw [hx, hx'] at hrel
      cases hrel with
      | some ht => exact ⟨rfl, ht⟩

end KeepsStep

section Opening

variable (hl : FileSystem.Aside places l)

include hl

theorem keepsStep_settle (unwritten writable : Bool) : KeepsStep places b (settle l unwritten writable) := by
  have hparts : settle l unwritten writable
      = replaceFiles "disk I/O error" (·.settleJournal l unwritten writable) >>= fun _ =>
        replaceFiles "unable to open database file" (·.settleLog l unwritten writable) := by
    simp only [settle, replaceFiles, bind_assoc]
  rw [hparts]
  exact .bind (.replaceFiles _ fun a a' h => h.settleJournal hl unwritten writable) fun _ =>
    .replaceFiles _ fun a a' h => h.settleLog hl unwritten writable

theorem keepsStep_save (d : Database) (writable : Bool) : KeepsStep places b (save d (.file l writable)) := by
  cases writable with
  | false => exact .refuse _
  | true =>
    have hparts : save d (.file l true)
        = replaceFiles "disk I/O error" (·.writeDatabase? l d) >>= fun _ => pure (.file l true) := by
      simp only [save, replaceFiles, bind_assoc]
    rw [hparts]
    exact .bind (.replaceFiles _ fun a a' h => h.writeDatabase? hl d) fun _ => .pure _

theorem keepsStep_migrated (o : Opening) (d : Database) : KeepsStep places b (migrated (found l o d) d) := by
  unfold migrated
  cases d.migrate with
  | error e => exact fun a a' h => ⟨rfl, h⟩
  | ok new =>
    refine .ite ?_ (.pure _)
    cases hfrozen : o.frozen with
    | true =>
      rw [found_of_frozen hfrozen]
      exact .refuse _
    | false =>
      rw [found_of_not_frozen hfrozen]
      exact keepsStep_save hl new o.writable

theorem keepsStep_contentAt (o : Opening) : KeepsStep places b (contentAt l o) := by
  intro a a' h
  unfold contentAt
  rw [both_get_bind, h.agreeOff.node l (hl.off l (Set.mem_insert _ _))]
  cases a.node? l with
  | none =>
    dsimp only
    split
    · exact ⟨rfl, h.put hl.ne_nil _ _⟩
    · exact ⟨rfl, h⟩
  | some n => cases n with
    | file content executable => exact ⟨rfl, h⟩
    | directory => exact ⟨rfl, h⟩

omit hl

theorem keepsStep_openPlace (hl : FileSystem.Aside places l) (o : Opening) : KeepsStep places b (openPlace l o) := by
  have hread (content : Content) : KeepsStep places b (readFound l o content) :=
    .bind (.orRefuse _ _) fun d => keepsStep_migrated hl o d
  exact .bind (keepsStep_contentAt hl o) fun content =>
    .ite (.bind (keepsStep_settle hl _ _) fun _ => hread content) (hread content)

theorem keepsStep_openFile {p : Path} {o : Opening} (havoids : b.AvoidsDatabase places p o) :
    KeepsStep places b (openFile p o) := by
  intro a a' h
  have hagree := h.agreeOff
  have havoids' := h.avoidsDatabase havoids
  unfold Both
  rw [openFile_eq, openFile_eq, hagree.databasePlace? havoids'.path havoids'.directory]
  cases hplace : a.databasePlace? p with
  | none => exact ⟨rfl, h⟩
  | some l =>
    have hl : FileSystem.Aside places l := by
      obtain ⟨rfl, hne, -⟩ := databasePlace?_some hplace
      exact ⟨hne, havoids'.own⟩
    dsimp only
    rw [hagree.lacksPattern havoids'.pattern]
    split_ifs
    · exact ⟨rfl, h⟩
    · exact keepsStep_openPlace hl o a a' h

theorem keepsStep_openOwn (writable : Bool) : KeepsStep places b (openOwn writable) := by
  unfold openOwn
  exact .ite (fun _ _ h => ⟨rfl, h⟩) (.refuse _)

/-- A name whose database is opened without a look at these places. -/
def NameAvoids (files : FileSystem) (places : Set Location) (name : Path) : Prop :=
  ∀ p o, Address.ofName? name.text = some (.file p o) → files.AvoidsDatabase places p o

theorem keepsStep_openAt {name : Path} (havoids : NameAvoids b places name) : KeepsStep places b (openAt name) := by
  unfold openAt
  cases haddress : Address.ofName? name.text with
  | none => exact .ite (.bind (.refuse _) fun _ => .refuse _) (.refuse _)
  | some address => cases address with
    | own writable =>
      have hown : KeepsStep places b (openOwn writable) := keepsStep_openOwn writable
      exact .ite (.bind (.refuse _) fun _ => hown) hown
    | file p o =>
      have hfile := keepsStep_openFile (havoids p o haddress)
      exact .ite (.bind (.refuse _) fun _ => hfile) hfile

end Opening

/-! ## Recording -/

def Aside (places : Set Location) (h : Handle) : Prop := ∀ l writable, h = .file l writable → FileSystem.Aside places l

theorem NameAvoids.off {name : Path} (havoids : NameAvoids a places name) (hhome : a.homeOf? name = some l) :
    ∀ k ∈ databasePlaces l, k ∉ places := by
  obtain ⟨p, o, haddress, rfl⟩ := homeOf?_eq_some.1 hhome
  exact (havoids p o haddress).own

theorem aside_of_openAt {name : Path} {handle : Handle} (havoids : NameAvoids a places name)
    (hopen : openAt name a = .ok handle b) : handle.Aside places := by
  rintro l writable rfl
  cases hhome : a.homeOf? name with
  | none =>
    obtain ⟨⟨d, hd⟩, -⟩ := (openAt_ends_of_none hhome).of_ok hopen
    cases hd
  | some k =>
    obtain ⟨⟨p, o, -, hhandle⟩, -, hmigrate⟩ := (openAt_ends hhome).of_ok hopen
    obtain rfl : k = l := by
      unfold found at hhandle
      split_ifs at hhandle
      exact (Handle.file.inj hhandle).1.symm
    obtain ⟨content, executable, hfile⟩ := exists_file_of_databaseAt_ne (Database.ne_blank_of_migrate hmigrate)
    exact ⟨ne_nil_of_not_isDirectoryAt (not_isDirectoryAt_of_file hfile), havoids.off hhome⟩

theorem openAt_both {name : Path} (havoids : NameAvoids b places name) (h : InStep places b a a') :
    Both (openAt name) (openAt name) a a'
      (fun handle t handle' t' => handle' = handle ∧ handle.Aside places ∧ InStep places b t t') (InStep places b) := by
  have havoids' : NameAvoids a places name := fun p o haddress => h.avoidsDatabase (havoids p o haddress)
  rcases (keepsStep_openAt havoids a a' h).cases with ⟨handle, t, _, t', hw, hw', rfl, ht⟩ | ⟨e, t, t', hw, hw', ht⟩
  · exact both_of_ok hw hw' ⟨rfl, aside_of_openAt havoids' hw, ht⟩
  · exact both_of_error hw hw' ht

theorem save_of_none {files : FileSystem} {d : Database} (h : files.writeDatabase? l d = none) :
    save d (.file l true) files = .error (.sql "disk I/O error") files := by
  change (orRefuse "disk I/O error" (files.writeDatabase? l d) >>= _) files = _
  rw [h]
  rfl

theorem save_of_some {files after : FileSystem} {d : Database} (h : files.writeDatabase? l d = some after) :
    save d (.file l true) files = .ok (.file l true) after := by
  change (orRefuse "disk I/O error" (files.writeDatabase? l d) >>= _) files = _
  rw [h]
  rfl

theorem Aside.database_eq {handle : Handle} (hhandle : handle.Aside places) (h : InStep places b a a') :
    handle.database a' = handle.database a := by
  cases handle with
  | memory d => rfl
  | frozen d => rfl
  | file l writable =>
    have hl := hhandle l writable rfl
    exact databaseAt_eq (h.agreeOff.node l (hl.off l (Set.mem_insert _ _)))

theorem Aside.keepsStep_save {handle : Handle} (hhandle : handle.Aside places) (d : Database) :
    KeepsStep places b (save d handle) := by
  cases handle with
  | memory own => exact .pure _
  | frozen own => exact .refuse _
  | file l writable => exact Handle.keepsStep_save (hhandle l writable rfl) d writable

theorem keepsStep_insertRun {handle : Handle} (hhandle : handle.Aside places) (run : NewRun) (output : BatchOutput) :
    KeepsStep places b (handle.insertRun run output) := by
  cases hwritable : handle.writable with
  | false =>
    rw [insertRun_of_not_writable hwritable]
    exact .refuse _
  | true =>
    rw [insertRun_eq hwritable]
    refine fun a a' h => both_get_bind.2 ?_
    rw [hhandle.database_eq h]
    cases (handle.database a).insertRun run output with
    | error e => exact ⟨rfl, h⟩
    | ok r => exact KeepsStep.bind (hhandle.keepsStep_save r.2) (fun kept => .pure (r.1, kept)) a a' h

/-- **Recording a run at other times leaves the same files but for times**, or it fails in both. -/
theorem insertRun_both {handle : Handle} (hhandle : handle.Aside places) (h : InStep places b a a') (run : NewRun)
    (output : BatchOutput) (startedAt finishedAt : String) :
    Both (handle.insertRun run output) (handle.insertRun (run.retimed startedAt finishedAt) output) a a'
      (fun r t r' t' => r'.1 = r.1 ∧ AgreeButTimes places t t') (InStep places b) := by
  cases hwritable : handle.writable with
  | false =>
    rw [insertRun_of_not_writable hwritable, insertRun_of_not_writable hwritable]
    exact ⟨rfl, h⟩
  | true =>
    have hsame := hhandle.database_eq h
    rw [insertRun_eq hwritable, insertRun_eq hwritable]
    refine both_get_bind.2 ?_
    rw [hsame, Database.insertRun_retimed]
    cases (handle.database a).insertRun run output with
    | error e => exact ⟨rfl, h⟩
    | ok r => cases handle with
      | frozen d => cases hwritable
      | memory d => exact ⟨rfl, h.agreeOff.butTimes⟩
      | file l writable =>
        obtain rfl : writable = true := hwritable
        have hl := hhandle l true rfl
        rcases h.writeDatabase?_cases hl with hnone | ⟨m, m', executable, hm, hsome⟩
        · exact .bind (both_of_error (save_of_none (hnone _).1) (save_of_none (hnone _).2) h)
        · exact .bind (both_of_ok (save_of_some (hsome _).1) (save_of_some (hsome _).2)
            ⟨rfl, hm.agreeOff.butTimes_put hl.ne_nil _ _ _ _⟩)

end Handle
end SourceSlice
