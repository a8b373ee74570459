import SourceSlice.Proofs.Results.Ledger
import SourceSlice.Proofs.Results.Opening
/-!
# Histories of a store

Callers open one results database as often as they like, under any of its names, and record and read runs through the
handles they got.  `Desk` is what there is between two calls, `Desk.serve` one call, and `Desk.serveAll` the history of
many.  `appendOnly_serveAll` says that such a history is one of an append-only list of runs: `serve_holds` shows that
one call keeps the database that of a ledger, which has grown by the run that the call recorded.
-/
namespace SourceSlice

/-- A call of the store.  A handle is told by its number in the order of opening. -/
inductive StoreCall where
  | open (name : Path)
  | insert (handle : Nat) (run : NewRun) (output : BatchOutput)
  | list (handle : Nat)
  | get (handle : Nat) (id : Int64)
  | load (handle : Nat) (id : Int64)

inductive StoreReply where
  | opened (handle : Nat)
  | inserted (id : Int64)
  | runs (runs : List RunRecord)
  | run (run : RunRecord)
  | output (output : BatchOutput)
  | failed (error : StoreError)
deriving DecidableEq

def StoreReply.ofExcept {α : Type} (done : α → StoreReply) : Except StoreError α → StoreReply
  | .ok a => done a
  | .error e => .failed e

structure StoreEvent where
  call : StoreCall
  reply : StoreReply

structure Desk where
  files : FileSystem
  handles : List Handle

namespace Desk

/-- **One call**, unless its handle was never given out. -/
def serve (d : Desk) : StoreCall → Option (StoreReply × Desk)
  | .open name => some <| match Handle.openAt name d.files with
    | .ok h files => (.opened d.handles.length, ⟨files, d.handles ++ [h]⟩)
    | .error e files => (.failed e, { d with files })
  | .insert i run output => d.handles[i]?.map fun h => match h.insertRun run output d.files with
    | .ok (id, h) files => (.inserted id, ⟨files, d.handles.set i h⟩)
    | .error e files => (.failed e, { d with files })
  | .list i => d.handles[i]?.map fun h => (.ofExcept .runs (h.database d.files).listRuns, d)
  | .get i id => d.handles[i]?.map fun h => (.ofExcept .run ((h.database d.files).getRun id), d)
  | .load i id => d.handles[i]?.map fun h => (.ofExcept .output ((h.database d.files).loadOutput id), d)

/-- **The history of some calls**, and the desk after the last.  What is no call is passed over. -/
def serveAll (d : Desk) : List StoreCall → List StoreEvent × Desk
  | [] => ([], d)
  | call :: rest => match d.serve call with
    | none => d.serveAll rest
    | some (reply, d) => (⟨call, reply⟩ :: (d.serveAll rest).1, (d.serveAll rest).2)

end Desk

/-! ## The list behind a history -/

def StoreEvent.recorded? (e : StoreEvent) : Option Recorded :=
  match e.call, e.reply with
  | .insert _ run output, .inserted id => some ⟨id, run, output⟩
  | _, _ => none

def recordedBy (events : List StoreEvent) : Ledger := events.filterMap StoreEvent.recorded?

/-- **What a call may be replied** when these runs were recorded before it. -/
def Ledger.Allows (l : Ledger) (e : StoreEvent) : Prop :=
  match e.call with
  | .open _ => (∃ i, e.reply = .opened i) ∨ ∃ error, e.reply = .failed error
  | .insert .. => (∃ id, e.reply = .inserted id ∧ ∀ r ∈ l, r.id < id) ∨ ∃ error, e.reply = .failed error
  | .list _ => e.reply = .runs l.list
  | .get _ id => (∀ r ∈ l, r.id = id → e.reply = .run r.record) ∧
      (id ∉ l.map (·.id) → e.reply = .failed (.runNotFound id))
  | .load _ id => (∀ r ∈ l, r.id = id → e.reply = .output r.loaded) ∧
      (id ∉ l.map (·.id) → e.reply = .failed (.runNotFound id))

/-- **A history of an append-only list of runs**, and the desk after it. -/
structure AppendOnly (events : List StoreEvent) (d : Desk) : Prop where
  /-- Every reply is what the runs recorded so far say; so a run that was recorded is given for its id from then on. -/
  replies : ∀ before e after, events = before ++ e :: after → (recordedBy before).Allows e
  /-- No id is given twice. -/
  ascending : (recordedBy events).Pairwise (·.id < ·.id)
  sliceCount : ∀ r ∈ recordedBy events, r.record.sliceCount.toNat = r.output.codeSlices.length
  labelled : ∀ r ∈ recordedBy events, r.record.labelled = true ↔ r.output.labels ≠ []
  loaded : ∀ r ∈ recordedBy events, r.output.labels.length ≤ r.output.codeSlices.length → r.loaded = r.output
  /-- All handles read the same list. -/
  handles : ∀ h ∈ d.handles, (h.database d.files).listRuns = .ok (recordedBy events).list ∧
    ∀ id, (h.database d.files).getRun id = (recordedBy events).get id ∧
      (h.database d.files).loadOutput id = (recordedBy events).load id
  /-- A run that is not recorded changes nothing. -/
  failed : ∀ i run output error after, d.serve (.insert i run output) = some (.failed error, after) → after = d

/-! ## One call -/

/-- An address of the database in the file at a place, which others may be writing to. -/
def Address.LeadsTo (files : FileSystem) (l : Location) : Address → Prop
  | .own _ => False
  | .file p o => o.frozen = false ∧ files.spelledPlace p = l

instance (files : FileSystem) (l : Location) : (a : Address) → Decidable (a.LeadsTo files l)
  | .own _ => isFalse nofun
  | .file p o => inferInstanceAs (Decidable (o.frozen = false ∧ files.spelledPlace p = l))

/-- **A name that opens no database but that at a place.** -/
def FileSystem.NamesOnly (files : FileSystem) (l : Location) (name : Path) : Prop :=
  ∀ a ∈ Address.ofName? name.text, a.LeadsTo files l

/-- **A place for a new database**: there is no file, or one that nothing was ever written to. -/
def FileSystem.IsNew (files : FileSystem) (l : Location) : Prop :=
  ∀ content executable, files.node? l = some (.file content executable) → content.isUnwritten

theorem FileSystem.namesOnly_congr {files before : FileSystem} {l : Location} {name : Path}
    (hcurrent : files.current = before.current) : files.NamesOnly l name ↔ before.NamesOnly l name := by
  refine forall₂_congr fun a _ => ?_
  cases a with
  | own writable => exact Iff.rfl
  | file p o => rw [Address.LeadsTo, Address.LeadsTo, spelledPlace_congr hcurrent]

theorem FileSystem.IsNew.databaseAt_eq {files : FileSystem} {l : Location} (h : files.IsNew l) :
    files.databaseAt l = .blank := by
  by_contra hne
  obtain ⟨content, executable, hfile⟩ := exists_file_of_databaseAt_ne hne
  have hunwritten := h content executable hfile
  refine hne ?_
  rw [databaseAt_of_file hfile]
  cases content with
  | bytes b =>
    have hsize : b.size ≤ 1 := of_decide_eq_true hunwritten
    rw [Content.database?, if_pos hsize]
    rfl
  | program b => cases hunwritten
  | database d => cases hunwritten

/-- **The file at a place holds what the ledger says**, and all handles are of it. -/
structure Desk.Holds (l : Location) (ledger : Ledger) (d : Desk) : Prop where
  ordered : ledger.Ordered
  handles : ∀ h ∈ d.handles, ∃ writable, h = .file l writable
  database : d.files.databaseAt l = ledger.database ∨ d.files.databaseAt l = .blank ∧ ledger = [] ∧ d.handles = []

namespace Desk

open Work

variable {d d' : Desk} {l : Location} {ledger : Ledger} {call : StoreCall} {reply : StoreReply}

theorem Holds.database_eq (h : d.Holds l ledger) (hne : d.handles ≠ []) : d.files.databaseAt l = ledger.database := by
  rcases h.database with hat | ⟨-, -, hnil⟩
  · exact hat
  · exact absurd hnil hne

theorem Holds.database_of_mem (h : d.Holds l ledger) {handle : Handle} (hmem : handle ∈ d.handles) :
    handle.database d.files = ledger.database := by
  obtain ⟨writable, rfl⟩ := h.handles handle hmem
  exact h.database_eq (List.ne_nil_of_mem hmem)

theorem Holds.database_of_migrate (h : d.Holds l ledger) {after : Database}
    (hafter : (d.files.databaseAt l).migrate = .ok after) : after = ledger.database := by
  -- Later openings find the ledger's database, the first one makes that of no runs.
  rcases h.database with hat | ⟨hat, rfl, -⟩
  · rw [hat, Ledger.migrate_database] at hafter
    exact (Except.ok.inj hafter).symm
  · rw [hat, Ledger.migrate_blank] at hafter
    exact (Except.ok.inj hafter).symm

theorem openAt_ends_of_namesOnly {files : FileSystem} {name : Path} (hname : files.NamesOnly l name) :
    Ends (Handle.openAt name) files
      (fun h after => (∃ writable, h = .file l writable) ∧ FileSystem.Around l files after ∧
        (files.databaseAt l).migrate = .ok (after.databaseAt l))
      (fun _ after => FileSystem.Around l files after ∧ after.databaseAt l = files.databaseAt l) := by
  cases haddress : Address.ofName? name.text with
  | none =>
    have hhome : files.homeOf? name = none := by rw [FileSystem.homeOf?, haddress]
    refine (Handle.openAt_ends_of_none hhome).imp ?_ ?_
    · rintro h after ⟨-, hsome, -⟩
      rw [haddress] at hsome
      cases hsome
    · rintro e after ⟨-, rfl⟩
      exact ⟨.refl _, rfl⟩
  | some address =>
    have hleads : address.LeadsTo files l := hname address haddress
    cases address with
    | own writable => exact hleads.elim
    | file p o =>
      obtain ⟨hfrozen, hplace⟩ := hleads
      refine (Handle.openAt_ends (Handle.homeOf?_eq_some.2 ⟨p, o, haddress, hplace⟩)).imp ?_ fun _ _ h => h.2
      rintro h after ⟨⟨p', o', haddress', rfl⟩, hafter⟩
      obtain ⟨rfl, rfl⟩ : p = p' ∧ o = o' := by
        rw [haddress] at haddress'
        cases haddress'
        exact ⟨rfl, rfl⟩
      exact ⟨⟨_, Handle.found_of_not_frozen hfrozen l _⟩, hafter⟩

theorem serve_open (h : d.Holds l ledger) {name : Path} (hname : d.files.NamesOnly l name)
    (hserve : d.serve (.open name) = some (reply, d')) :
    ledger.Allows ⟨.open name, reply⟩ ∧ d'.Holds l ledger ∧ d'.files.current = d.files.current := by
  have hends := openAt_ends_of_namesOnly hname
  rw [serve] at hserve
  cases hopen : Handle.openAt name d.files with
  | ok handle files =>
    rw [hopen] at hserve
    cases hserve
    obtain ⟨hhandle, haround, hmigrate⟩ := hends.of_ok hopen
    refine ⟨.inl ⟨_, rfl⟩, ⟨h.ordered, fun x hx => ?_, .inl (h.database_of_migrate hmigrate)⟩, haround.current⟩
    rcases List.mem_append.1 hx with hx | hx
    · exact h.handles x hx
    · rw [List.mem_singleton.1 hx]; exact hhandle
  | error e files =>
    rw [hopen] at hserve
    cases hserve
    obtain ⟨haround, hat⟩ := hends.of_error hopen
    exact ⟨.inr ⟨_, rfl⟩, ⟨h.ordered, h.handles, by rw [hat]; exact h.database⟩, haround.current⟩

theorem serve_insert (h : d.Holds l ledger) {i : Nat} {run : NewRun} {output : BatchOutput}
    (hserve : d.serve (.insert i run output) = some (reply, d')) :
    ledger.Allows ⟨.insert i run output, reply⟩ ∧
      d'.Holds l (ledger ++ recordedBy [⟨.insert i run output, reply⟩]) ∧ d'.files.current = d.files.current := by
  obtain ⟨handle, hhandle, hreply⟩ := Option.map_eq_some_iff.1 hserve
  have hmem : handle ∈ d.handles := List.mem_of_getElem? hhandle
  obtain ⟨writable, rfl⟩ := h.handles handle hmem
  have hends := @Handle.insertRun_ends d.files l writable run output
  cases hinsert : (Handle.file l writable).insertRun run output d.files with
  | ok r files =>
    rw [hinsert] at hreply
    cases hreply
    obtain ⟨hsame, haround, hdatabase⟩ := hends.of_ok hinsert
    rw [h.database_eq (List.ne_nil_of_mem hmem)] at hdatabase
    obtain ⟨hat, hordered, hlt⟩ := Ledger.insertRun_database h.ordered hdatabase
    refine ⟨.inl ⟨_, rfl, hlt⟩, ⟨hordered, fun x hx => ?_, .inl hat⟩, haround.current⟩
    rcases List.mem_or_eq_of_mem_set hx with hx | rfl
    · exact h.handles x hx
    · exact ⟨writable, hsame⟩
  | error e files =>
    rw [hinsert] at hreply
    cases hreply
    obtain ⟨-, rfl⟩ := hends.of_error hinsert
    refine ⟨.inr ⟨_, rfl⟩, ?_, rfl⟩
    rw [show recordedBy [⟨.insert i run output, .failed e⟩] = [] from rfl, List.append_nil]
    exact h

theorem eq_of_serve_insert_failed {i : Nat} {run : NewRun} {output : BatchOutput} {e : StoreError}
    (hserve : d.serve (.insert i run output) = some (.failed e, d')) : d' = d := by
  obtain ⟨handle, -, hreply⟩ := Option.map_eq_some_iff.1 hserve
  cases hinsert : handle.insertRun run output d.files with
  | ok r files => rw [hinsert] at hreply; cases hreply
  | error e files =>
    rw [hinsert, Handle.eq_of_insertRun_error hinsert] at hreply
    cases hreply
    rfl

theorem allows_get (h : ledger.Ordered) (i : Nat) (id : Int64) :
    ledger.Allows ⟨.get i id, .ofExcept .run (ledger.get id)⟩ := by
  refine ⟨?_, fun hid => by rw [Ledger.get_eq_error hid]; rfl⟩
  rintro r hr rfl
  rw [h.get_eq hr]
  rfl

theorem allows_load (h : ledger.Ordered) (i : Nat) (id : Int64) :
    ledger.Allows ⟨.load i id, .ofExcept .output (ledger.load id)⟩ := by
  refine ⟨?_, fun hid => by rw [Ledger.load_eq_error hid]; rfl⟩
  rintro r hr rfl
  rw [h.load_eq hr]
  rfl

/-- **One call is answered as the ledger says and adds to it the run that it records.** -/
theorem serve_holds (h : d.Holds l ledger) (hname : ∀ name, call = .open name → d.files.NamesOnly l name)
    (hserve : d.serve call = some (reply, d')) :
    ledger.Allows ⟨call, reply⟩ ∧ d'.Holds l (ledger ++ recordedBy [⟨call, reply⟩]) ∧
      d'.files.current = d.files.current := by
  cases call with
  | «open» name =>
    rw [show recordedBy [⟨.open name, reply⟩] = [] from rfl, List.append_nil]
    exact serve_open h (hname name rfl) hserve
  | insert i run output => exact serve_insert h hserve
  | list i =>
    obtain ⟨handle, hhandle, hreply⟩ := Option.map_eq_some_iff.1 hserve
    rw [h.database_of_mem (List.mem_of_getElem? hhandle), Ledger.listRuns_database h.ordered] at hreply
    cases hreply
    exact ⟨rfl, (List.append_nil ledger).symm ▸ h, rfl⟩
  | get i id =>
    obtain ⟨handle, hhandle, hreply⟩ := Option.map_eq_some_iff.1 hserve
    rw [h.database_of_mem (List.mem_of_getElem? hhandle), Ledger.getRun_database] at hreply
    cases hreply
    exact ⟨allows_get h.ordered i id, (List.append_nil ledger).symm ▸ h, rfl⟩
  | load i id =>
    obtain ⟨handle, hhandle, hreply⟩ := Option.map_eq_some_iff.1 hserve
    rw [h.database_of_mem (List.mem_of_getElem? hhandle), Ledger.loadOutput_database h.ordered] at hreply
    cases hreply
    exact ⟨allows_load h.ordered i id, (List.append_nil ledger).symm ▸ h, rfl⟩

/-! ## Many calls -/

/-- **A history goes on from a ledger as the ledger goes on.** -/
theorem serveAll_holds : ∀ {calls : List StoreCall} {d : Desk} {ledger : Ledger}, d.Holds l ledger →
    (∀ name, .open name ∈ calls → d.files.NamesOnly l name) →
    (d.serveAll calls).2.Holds l (ledger ++ recordedBy (d.serveAll calls).1) ∧
      ∀ before e after, (d.serveAll calls).1 = before ++ e :: after → (ledger ++ recordedBy before).Allows e
  | [], d, ledger, h, _ => by
    refine ⟨(List.append_nil ledger).symm ▸ h, fun before e after hevents => ?_⟩
    exact absurd hevents.symm (List.append_ne_nil_of_right_ne_nil _ (List.cons_ne_nil _ _))
  | call :: rest, d, ledger, h, hnames => by
    have hrest (name : Path) (hname : .open name ∈ rest) : d.files.NamesOnly l name :=
      hnames name (List.mem_cons_of_mem _ hname)
    rw [serveAll]
    cases hserve : d.serve call with
    | none => exact serveAll_holds h hrest
    | some r =>
      obtain ⟨reply, d'⟩ := r
      -- The rest goes on from the ledger that this call has made; its names mean what they meant before the call, for
      -- no call moves the directory that relative names start from.
      obtain ⟨hallows, hholds, hcurrent⟩ :=
        serve_holds h (fun name hname => hnames name (hname ▸ List.mem_cons_self)) hserve
      obtain ⟨hlast, hevents⟩ := serveAll_holds hholds fun name hname => by
        exact (FileSystem.namesOnly_congr hcurrent).2 (hrest name hname)
      have hrecorded (events : List StoreEvent) : ledger ++ recordedBy (⟨call, reply⟩ :: events)
          = ledger ++ recordedBy [⟨call, reply⟩] ++ recordedBy events := by
        rw [List.append_assoc, recordedBy, recordedBy, recordedBy, ← List.filterMap_append]
        rfl
      refine ⟨by rw [hrecorded]; exact hlast, fun before e after hsplit => ?_⟩
      cases before with
      | nil =>
        cases hsplit
        exact (List.append_nil ledger).symm ▸ hallows
      | cons first before =>
        obtain ⟨rfl, hafter⟩ := List.cons.inj hsplit
        rw [hrecorded]
        exact hevents before e after hafter

/-- **A store that starts from a new database is an append-only list of runs.** -/
theorem appendOnly_serveAll (files : FileSystem) (l : Location) (calls : List StoreCall)
    (hnew : files.IsNew l) (hnames : ∀ name, .open name ∈ calls → files.NamesOnly l name) :
    AppendOnly (serveAll ⟨files, []⟩ calls).1 (serveAll ⟨files, []⟩ calls).2 := by
  have hstart : Holds l [] ⟨files, []⟩ :=
    ⟨Ledger.ordered_nil, (fun _ h => nomatch h), .inr ⟨hnew.databaseAt_eq, rfl, rfl⟩⟩
  obtain ⟨hholds, hreplies⟩ := serveAll_holds hstart hnames
  rw [List.nil_append] at hholds
  exact {
    replies := hreplies
    ascending := hholds.ordered.ascending
    sliceCount := fun r hr => (hholds.ordered.fits r hr).toNat_sliceCount
    labelled := fun r _ => r.labelled_record
    loaded := fun r _ => r.loaded_of_le
    handles := fun h hmem => by
      rw [hholds.database_of_mem hmem]
      exact ⟨Ledger.listRuns_database hholds.ordered, fun id =>
        ⟨Ledger.getRun_database _ id, Ledger.loadOutput_database hholds.ordered id⟩⟩
    failed := fun _ _ _ _ _ hserve => eq_of_serve_insert_failed hserve }

/-- One database under two names.  One output has fewer labels than slices, another one more. -/
def callsUnderTwoNames : List StoreCall :=
  let run : NewRun := ⟨"prog.bc", none, .backward, "0", "1"⟩
  [.open ⟨"runs.db"⟩, .insert 0 run ⟨["a", "b"], ["x"]⟩, .open ⟨"file:/./runs.db?mode=ro"⟩, .insert 1 run ⟨[], []⟩,
    .insert 0 run ⟨["c"], ["y", "z"]⟩, .list 1, .load 1 1, .get 0 3]

theorem appendOnly_serveAll_two_names :
    FileSystem.IsNew ⟨[], []⟩ ["runs.db"] ∧
      (∀ name, .open name ∈ callsUnderTwoNames → FileSystem.NamesOnly ⟨[], []⟩ ["runs.db"] name) ∧
      (recordedBy (serveAll ⟨⟨[], []⟩, []⟩ callsUnderTwoNames).1).map (·.id) = [1, 2] ∧
      AppendOnly (serveAll ⟨⟨[], []⟩, []⟩ callsUnderTwoNames).1 (serveAll ⟨⟨[], []⟩, []⟩ callsUnderTwoNames).2 := by
  have hnew : FileSystem.IsNew ⟨[], []⟩ ["runs.db"] := nofun
  have hnames : ∀ name, .open name ∈ callsUnderTwoNames → FileSystem.NamesOnly ⟨[], []⟩ ["runs.db"] name := by
    intro name hname
    simp only [callsUnderTwoNames, List.mem_cons, StoreCall.open.injEq, reduceCtorEq, List.not_mem_nil, or_false,
      false_or] at hname
    unfold FileSystem.NamesOnly
    rcases hname with rfl | rfl <;> decide +kernel
  exact ⟨hnew, hnames, by decide +kernel, appendOnly_serveAll ⟨[], []⟩ ["runs.db"] callsUnderTwoNames hnew hnames⟩

end Desk
end SourceSlice
