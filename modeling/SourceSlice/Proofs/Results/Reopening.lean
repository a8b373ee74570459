import SourceSlice.Proofs.Results.InStep
/-!
# Opening a database again

Opening a database to look at it may change its files: an empty file gets its tables, and what an interrupted change
left beside it is cleared away.  Whoever opens it for writing afterwards does not see that: what would be done has been
done already, and the rest is done now (`openPlace_absorbed`).

What opening comes to is told by `opening`, which sees no places but those of the database (`opening_congr`).
-/
namespace SourceSlice

theorem Database.migrate_of_migrate {d new : Database} (h : d.migrate = .ok new) :
    new.migrate = .ok new ∧ new.version ≠ 0 := by
  rcases migrate_eq_ok h with ⟨-, rfl⟩ | ⟨hnewer, hzero, rfl⟩
  · have hcurrent : d.withTables.version = Store.currentVersion := rfl
    have hnewer : ¬ Store.currentVersion < d.withTables.version := by rw [hcurrent]; decide
    have hzero : d.withTables.version ≠ 0 := by rw [hcurrent]; decide
    exact ⟨by rw [migrate, if_neg hnewer, if_neg hzero], hzero⟩
  · exact ⟨h, hzero⟩

def Leftover.goes (unwritten : Bool) : Leftover → Bool
  | spent | file => true
  | live => unwritten
  | nothing | directory => false

namespace FileSystem

variable {files a : FileSystem} {l k m : Location} {unwritten writable : Bool}

/-! ## Clearing away -/

theorem erase_comm (files : FileSystem) (k m : Location) : (files.erase k).erase m = (files.erase m).erase k := by
  rw [erase, erase, erase, erase]
  simp only [List.filter_filter, Bool.and_comm]

theorem leftoverAt_erase_self (hk : k ≠ []) : (files.erase k).leftoverAt k = .nothing := by
  rw [leftoverAt, node?_erase hk, if_pos (List.suffix_refl k)]

theorem leftoverAt_erase_of_length_eq (hk : k ≠ []) (hlength : List.length m = List.length k) (hne : m ≠ k) :
    (files.erase k).leftoverAt m = files.leftoverAt m := by
  rw [leftoverAt, leftoverAt, node?_erase hk, if_neg fun h => hne (h.eq_of_length hlength.symm).symm]

theorem length_beside (mark : String) (l : Location) : List.length (l.beside mark) = List.length l := by
  cases l <;> rfl

theorem journal_ne_log (hl : l ≠ []) : l.beside journalMark ≠ l.beside logMark := by
  cases l with
  | nil => exact absurd rfl hl
  | cons name l =>
    intro h
    have hsize := congrArg String.utf8ByteSize (List.cons.inj h).1
    have hjournal : journalMark.utf8ByteSize = 8 := by decide
    have hlog : logMark.utf8ByteSize = 4 := by decide
    rw [String.utf8ByteSize_append, String.utf8ByteSize_append] at hsize
    omega

section

variable (hl : l ≠ [])

include hl

theorem log_erase_journal : (files.erase (l.beside journalMark)).leftoverAt (l.beside logMark)
    = files.leftoverAt (l.beside logMark) :=
  leftoverAt_erase_of_length_eq (beside_ne_nil hl) (by rw [length_beside, length_beside]) (journal_ne_log hl).symm

theorem journal_erase_log : (files.erase (l.beside logMark)).leftoverAt (l.beside journalMark)
    = files.leftoverAt (l.beside journalMark) :=
  leftoverAt_erase_of_length_eq (beside_ne_nil hl) (by rw [length_beside, length_beside]) (journal_ne_log hl)

theorem settleJournal_cases (h : files.settleJournal l unwritten writable = some a) :
    (a = files ∨ a = files.erase (l.beside journalMark)) ∧ (files.settleJournal l unwritten true).isSome ∧
      a.settleJournal l unwritten true = files.settleJournal l unwritten true := by
  have hgone : (files.erase (l.beside journalMark)).leftoverAt (l.beside journalMark) = .nothing :=
    leftoverAt_erase_self (beside_ne_nil hl)
  unfold settleJournal at h ⊢
  dsimp only at h ⊢
  cases hj : files.leftoverAt (l.beside journalMark) <;> cases unwritten <;> cases writable <;>
    simp only [hj, if_true, Bool.false_eq_true, if_false, Option.some.injEq, reduceCtorEq] at h <;> subst h <;>
    simp [hj, hgone]

theorem settleJournal_erase_log : (files.erase (l.beside logMark)).settleJournal l unwritten writable
    = (files.settleJournal l unwritten writable).map (·.erase (l.beside logMark)) := by
  unfold settleJournal
  dsimp only
  rw [journal_erase_log hl]
  cases files.leftoverAt (l.beside journalMark) <;> cases unwritten <;> cases writable <;> simp [erase_comm]

omit hl in
theorem settleLog_of_goes (h : (files.leftoverAt (l.beside logMark)).goes unwritten = true) :
    files.settleLog l unwritten true = some (files.erase (l.beside logMark)) := by
  unfold settleLog
  dsimp only
  cases hg : files.leftoverAt (l.beside logMark) with
  | nothing => rw [hg] at h; cases h
  | directory => rw [hg] at h; cases h
  | spent => exact congrArg some (if_pos (.inl rfl))
  | file => exact congrArg some (if_pos (.inl rfl))
  | live => rw [hg] at h; exact if_pos h

omit hl in
theorem settleLog_cases (h : files.settleLog l unwritten writable = some a) :
    (a = files ∧ (writable = true → files.leftoverAt (l.beside logMark) = .nothing)) ∨
      a = files.erase (l.beside logMark) ∧ (files.leftoverAt (l.beside logMark)).goes unwritten = true := by
  unfold settleLog at h
  dsimp only at h
  have hclear (hgoes : (files.leftoverAt (l.beside logMark)).goes unwritten = true)
      (h : (if writable = true ∨ unwritten = true then files.erase (l.beside logMark) else files) = a) :
      (a = files ∧ (writable = true → files.leftoverAt (l.beside logMark) = .nothing)) ∨
        a = files.erase (l.beside logMark) ∧ (files.leftoverAt (l.beside logMark)).goes unwritten = true := by
    split at h
    · exact .inr ⟨h.symm, hgoes⟩
    next hno => exact .inl ⟨h.symm, fun hwritable => absurd (.inl hwritable) hno⟩
  cases hg : files.leftoverAt (l.beside logMark) with
  | nothing => rw [hg] at h; exact .inl ⟨(Option.some.inj h).symm, fun _ => rfl⟩
  | directory => rw [hg] at h; cases h
  | spent => rw [hg] at h hclear; exact hclear rfl (Option.some.inj h)
  | file => rw [hg] at h hclear; exact hclear rfl (Option.some.inj h)
  | live =>
    rw [hg] at h
    dsimp only at h
    split_ifs at h with hunwritten
    exact .inr ⟨(Option.some.inj h).symm, hunwritten⟩

theorem settleLog_erase_log : (files.erase (l.beside logMark)).settleLog l unwritten writable
    = some (files.erase (l.beside logMark)) := by
  unfold settleLog
  dsimp only
  rw [leftoverAt_erase_self (beside_ne_nil hl)]

theorem writeDatabase?_leaves {d : Database} (h : files.writeDatabase? l d = some a) :
    a.node? l = some (.file (.database d) (files.executableAt l)) ∧
      a.leftoverAt (l.beside journalMark) = .nothing ∧
      a.leftoverAt (l.beside logMark) = files.leftoverAt (l.beside logMark) := by
  unfold writeDatabase? at h
  dsimp only at h
  split_ifs at h
  cases h
  have hbeside (mark : String) (hmark : mark ≠ "") :
      ((files.erase (l.beside journalMark)).put l (.file (.database d) (files.executableAt l))).leftoverAt
        (l.beside mark) = (files.erase (l.beside journalMark)).leftoverAt (l.beside mark) := by
    rw [leftoverAt, leftoverAt, node?_put _ _ _ _ hl, if_neg (Location.beside_ne hmark hl)]
  refine ⟨node?_put_self hl, ?_, ?_⟩
  · rw [hbeside journalMark (by decide), leftoverAt_erase_self (beside_ne_nil hl)]
  · rw [hbeside logMark (by decide), log_erase_journal hl]

end

end FileSystem

namespace Handle

open FileSystem Work

variable {files a t : FileSystem} {l : Location} {content : Content} {executable : Bool}

theorem settle_eq (l : Location) (unwritten writable : Bool) (files : FileSystem) : settle l unwritten writable files =
    match files.settleJournal l unwritten writable with
    | none => .error (.sql "disk I/O error") files
    | some a => match a.settleLog l unwritten writable with
      | none => .error (.sql "unable to open database file") a
      | some t => .ok ⟨⟩ t := by
  change (orRefuse "disk I/O error" (files.settleJournal l unwritten writable) >>= _) files = _
  cases files.settleJournal l unwritten writable with
  | none => rfl
  | some a =>
    change (orRefuse "unable to open database file" (a.settleLog l unwritten writable) >>= _) a = _
    dsimp only
    cases a.settleLog l unwritten writable with
    | none => rfl
    | some t => rfl

theorem settle_of_nothing (unwritten writable : Bool) (hjournal : files.leftoverAt (l.beside journalMark) = .nothing)
    (hlog : files.leftoverAt (l.beside logMark) = .nothing) : settle l unwritten writable files = .ok ⟨⟩ files := by
  have hj : files.settleJournal l unwritten writable = some files := by
    unfold settleJournal
    dsimp only
    rw [hjournal]
  have hg : files.settleLog l unwritten writable = some files := by
    unfold settleLog
    dsimp only
    rw [hlog]
  rw [settle_eq, hj]
  dsimp only
  rw [hg]

/-- **Clearing away for writing is the same after something has been cleared away.** -/
theorem settle_absorbed (hl : l ≠ []) (unwritten writable : Bool) :
    Ends (settle l unwritten writable) files
      (fun _ t => settle l unwritten true t = settle l unwritten true files ∧ (writable = true →
        settle l unwritten true files = .ok ⟨⟩ t ∧ t.leftoverAt (l.beside logMark) = .nothing))
      (fun _ t => settle l unwritten true t = settle l unwritten true files) := by
  unfold Ends
  rw [settle_eq l unwritten writable]
  cases hjournal : files.settleJournal l unwritten writable with
  | none => rfl
  | some a =>
    obtain ⟨-, hsome, hsame⟩ := settleJournal_cases hl hjournal
    have hfirst : settle l unwritten true a = settle l unwritten true files := by
      obtain ⟨b, hb⟩ := Option.isSome_iff_exists.1 hsome
      rw [settle_eq, settle_eq, hsame, hb]
    dsimp only
    cases hlog : a.settleLog l unwritten writable with
    | none => exact hfirst
    | some t =>
      have hdone (hw : writable = true) : settle l unwritten true files = .ok ⟨⟩ t := by
        subst hw
        rw [settle_eq, hjournal]
        dsimp only
        rw [hlog]
      rcases settleLog_cases hlog with ⟨rfl, hnothing⟩ | ⟨rfl, hleft⟩
      · exact ⟨hfirst, fun hw => ⟨hdone hw, hnothing hw⟩⟩
      -- The log was erased before the journal would be, which does not matter for either.
      · refine ⟨Eq.trans ?_ hfirst, fun hw => ⟨hdone hw, leftoverAt_erase_self (beside_ne_nil hl)⟩⟩
        obtain ⟨b, hb⟩ := Option.isSome_iff_exists.1 hsome
        have hbleft : b.leftoverAt (l.beside logMark) = a.leftoverAt (l.beside logMark) := by
          rcases (settleJournal_cases hl (hsame.trans hb)).1 with rfl | rfl
          · rfl
          · exact log_erase_journal hl
        rw [settle_eq, settle_eq, settleJournal_erase_log hl, hsame, hb]
        dsimp only [Option.map_some]
        rw [settleLog_erase_log hl, settleLog_of_goes (hbleft ▸ hleft)]

/-! ## Opening -/

theorem contentAt_of_file (h : files.node? l = some (.file content executable)) (o : Opening) :
    contentAt l o files = .ok content files := by
  have hget : (get : Storing FileSystem) files = .ok files files := rfl
  unfold contentAt
  rw [bind_of_ok hget, h]
  rfl

theorem openPlace_eq (l : Location) (o : Opening) : openPlace l o = contentAt l o >>= fun content =>
    if (!o.frozen) = true then settle l content.isUnwritten o.writable >>= fun _ => readFound l o content
    else readFound l o content := rfl

def openContent (l : Location) (content : Content) : Storing Handle :=
  settle l content.isUnwritten true >>= fun _ => readFound l {} content

theorem openPlace_of_contentAt (h : contentAt l {} files = .ok content t) :
    openPlace l {} files = openContent l content t := by
  have hparts : openPlace l {} = contentAt l {} >>= openContent l := rfl
  rw [hparts, bind_of_ok h]

theorem contentAt_absorbed (hl : l ≠ []) (o : Opening) :
    Ends (contentAt l o) files
      (fun content t => openPlace l {} t = openPlace l {} files ∧
        ∃ executable, t.node? l = some (.file content executable))
      (fun _ t => t = files) := by
  refine .bind (ends_get.2 ?_)
  cases hnode : files.node? l with
  | some n => cases n with
    | file content executable => exact ⟨rfl, executable, hnode⟩
    | directory => exact rfl
  | none =>
    dsimp only
    split_ifs with haccess
    · refine .bind (ends_modify.2 ⟨?_, false, node?_put_self hl⟩)
      have hmade : contentAt l {} files
          = .ok (.bytes ByteArray.empty) (files.put l (.file (.bytes ByteArray.empty) false)) := by
        have hget : (get : Storing FileSystem) files = .ok files files := rfl
        unfold contentAt
        rw [bind_of_ok hget, hnode]
        rfl
      rw [openPlace_of_contentAt (contentAt_of_file (node?_put_self hl) {}), openPlace_of_contentAt hmade]
    · exact rfl

theorem not_frozen_of_writable {o : Opening} (h : o.writable = true) : o.frozen = false := by
  rw [Opening.writable, Bool.and_eq_true, Bool.not_eq_true'] at h
  exact h.2

theorem migrated_writes (o : Opening) (d : Database) : Ends (migrated (found l o d) d) files
    (fun _ t => ∃ new, d.migrate = .ok new ∧
      if d.version = 0 then o.writable = true ∧ files.writeDatabase? l new = some t else t = files)
    (fun _ t => t = files) := by
  unfold migrated
  cases hnew : d.migrate with
  | error e => exact rfl
  | ok new =>
    dsimp only
    split_ifs with hversion
    · cases hwritable : o.writable with
      | false =>
        have hrefused : save new (found l o d) = refuse "attempt to write a readonly database" := by
          unfold found
          rw [hwritable]
          split_ifs <;> rfl
        rw [hrefused]
        exact rfl
      | true =>
        rw [found_of_not_frozen (not_frozen_of_writable hwritable), hwritable]
        refine .bind (ends_get.2 (.bind (ends_orRefuse (fun t ht => ?_) fun _ => rfl)))
        exact .bind (ends_set.2 ⟨new, rfl, rfl, ht⟩)
    · exact ⟨new, rfl, rfl⟩

theorem migrated_ends_in (o : Opening) (d : Database) : EndsIn (migrated (found l o d) d) files fun t =>
    t = files ∨ o.writable = true ∧ ∃ new, d.migrate = .ok new ∧ d.version = 0 ∧
      files.writeDatabase? l new = some t := by
  refine (migrated_writes o d).imp ?_ fun _ _ h => .inl h
  rintro _ t ⟨new, hnew, hwritten⟩
  split_ifs at hwritten with hversion
  · exact .inr ⟨hwritten.1, new, hnew, hversion, hwritten.2⟩
  · exact .inl hwritten

theorem openPlace_writeDatabase? {d new : Database} (hl : l ≠ []) (hmigrate : d.migrate = .ok new)
    (hlog : files.leftoverAt (l.beside logMark) = .nothing) (hwrite : files.writeDatabase? l new = some t) :
    openPlace l {} t = .ok (.file l true) t := by
  obtain ⟨hagain, hversion⟩ := Database.migrate_of_migrate hmigrate
  obtain ⟨hfile, hjournal, hlog'⟩ := writeDatabase?_leaves hl hwrite
  have hsettled := settle_of_nothing (Content.database new).isUnwritten true hjournal (hlog'.trans hlog)
  rw [openPlace_of_contentAt (contentAt_of_file hfile {}), openContent, bind_of_ok hsettled]
  change migrated (.file l true) new t = _
  unfold migrated
  rw [hagain]
  dsimp only
  rw [if_neg hversion]
  rfl

theorem openContent_of_version_zero {d new : Database}
    (hsettled : settle l content.isUnwritten true files = .ok ⟨⟩ files) (hd : content.database? = some d)
    (hmigrate : d.migrate = .ok new) (hversion : d.version = 0) (hwrite : files.writeDatabase? l new = some t) :
    openContent l content files = .ok (.file l true) t := by
  rw [openContent, bind_of_ok hsettled, readFound, hd]
  change migrated (.file l true) d files = _
  unfold migrated
  rw [hmigrate]
  dsimp only
  rw [if_pos hversion, save_of_some hwrite]

theorem readFound_absorbed (hl : l ≠ []) {o : Opening} (hnode : files.node? l = some (.file content executable))
    (hsettled : o.writable = true → settle l content.isUnwritten true files = .ok ⟨⟩ files ∧
      files.leftoverAt (l.beside logMark) = .nothing) :
    EndsIn (readFound l o content) files fun t => openPlace l {} t = openPlace l {} files := by
  refine .bind (ends_orRefuse (fun d hd => ?_) fun _ => rfl)
  have hkept (t : FileSystem) (h : t = files ∨ o.writable = true ∧
      ∃ new, d.migrate = .ok new ∧ d.version = 0 ∧ files.writeDatabase? l new = some t) :
      openPlace l {} t = openPlace l {} files := by
    rcases h with rfl | ⟨hw, new, hmigrate, hversion, hwrite⟩
    · rfl
    · obtain ⟨hsettle, hlog⟩ := hsettled hw
      rw [openPlace_writeDatabase? hl hmigrate hlog hwrite, openPlace_of_contentAt (contentAt_of_file hnode {}),
        openContent_of_version_zero hsettle hd hmigrate hversion hwrite]
  exact (migrated_ends_in o d).imp (fun _ => hkept) fun _ => hkept

/-- **Opening for writing is the same after any other opening.** -/
theorem openPlace_absorbed (hl : l ≠ []) (o : Opening) :
    EndsIn (openPlace l o) files fun t => openPlace l {} t = openPlace l {} files := by
  rw [openPlace_eq]
  refine .bind ((contentAt_absorbed hl o).imp ?_ ?_)
  · rintro content made ⟨hmade, executable, hnode⟩
    have hopen {t : FileSystem} (ht : t.node? l = some (.file content executable))
        (hsettle : settle l content.isUnwritten true t = settle l content.isUnwritten true made) :
        openPlace l {} t = openPlace l {} files := by
      rw [← hmade, openPlace_of_contentAt (contentAt_of_file ht {}), openPlace_of_contentAt (contentAt_of_file hnode {})]
      exact bind_eq_of_eq hsettle
    have hread {settled : FileSystem} (hsettled : settled.node? l = some (.file content executable))
        (hsame : openPlace l {} settled = openPlace l {} files)
        (hready : o.writable = true → settle l content.isUnwritten true settled = .ok ⟨⟩ settled ∧
          settled.leftoverAt (l.beside logMark) = .nothing) :
        EndsIn (readFound l o content) settled fun t => openPlace l {} t = openPlace l {} files :=
      (readFound_absorbed hl hsettled hready).imp (fun _ _ h => h.trans hsame) fun _ _ h => h.trans hsame
    split_ifs with hfrozen
    · have hsettle := (@settle_absorbed made l hl content.isUnwritten o.writable).and
        (settle_ends hl content.isUnwritten o.writable)
      refine .bind (hsettle.imp ?_ ?_)
      · rintro _ settled ⟨⟨hsame, hready⟩, -, hkept⟩
        refine hread (hkept.trans hnode) (hopen (hkept.trans hnode) hsame) fun hw => ⟨?_, (hready hw).2⟩
        exact hsame.trans (hready hw).1
      · rintro e t ⟨hsame, -, -, hkept⟩
        exact hopen (hkept.trans hnode) hsame
    · refine hread hnode hmade fun hw => ?_
      rw [not_frozen_of_writable hw] at hfrozen
      exact absurd rfl hfrozen
  · rintro e _ rfl
    rfl

/-! ## What opening comes to -/

/-- **What opening a database for writing comes to**: an error, or the handle with all that stands at its places. -/
def opening (l : Location) (files : FileSystem) : Except StoreError (Handle × List (Option Node)) :=
  match openPlace l {} files with
  | .ok h t => .ok (h, [t.node? l, t.node? (l.beside journalMark), t.node? (l.beside logMark)])
  | .error e _ => .error e

theorem opening_absorbed (hl : l ≠ []) (o : Opening) :
    EndsIn (openPlace l o) files fun t => opening l t = opening l files := by
  have hkept (t : FileSystem) (h : openPlace l {} t = openPlace l {} files) : opening l t = opening l files := by
    rw [opening, opening, h]
  exact (openPlace_absorbed hl o).imp (fun _ => hkept) fun _ => hkept

theorem opening_congr (hl : l ≠ []) (h : AgreeOff (databasePlaces l)ᶜ a files) : opening l files = opening l a := by
  have haside : FileSystem.Aside (databasePlaces l)ᶜ l := ⟨hl, fun k hk hno => hno hk⟩
  unfold opening
  rcases (keepsStep_openPlace haside {} a files h.inStep).cases with
    ⟨handle, t, _, t', hw, hw', rfl, ht⟩ | ⟨e, t, t', hw, hw', -⟩
  · have hnode (k : Location) (hk : k ∈ databasePlaces l) : t'.node? k = t.node? k :=
      ht.agreeOff.node k fun hno => hno hk
    rw [hw, hw']
    dsimp only
    rw [hnode l (Set.mem_insert _ _), hnode _ (beside_journal_mem l), hnode _ (beside_log_mem l)]
  · rw [hw, hw']

theorem both_of_opening (h : opening l files = opening l a) : Both (openPlace l {}) (openPlace l {}) a files
    (fun handle t handle' t' => handle' = handle ∧ ∀ k ∈ databasePlaces l, t'.node? k = t.node? k)
    fun _ _ => True := by
  unfold opening at h
  cases hw : openPlace l {} a with
  | error e t =>
    cases hw' : openPlace l {} files with
    | error e' t' => rw [hw, hw'] at h; cases h; exact both_of_error hw hw' trivial
    | ok handle' t' => rw [hw, hw'] at h; cases h
  | ok handle t =>
    cases hw' : openPlace l {} files with
    | error e' t' => rw [hw, hw'] at h; cases h
    | ok handle' t' =>
      rw [hw, hw'] at h
      simp only [Except.ok.injEq, Prod.mk.injEq, List.cons.injEq, and_true] at h
      obtain ⟨rfl, hown, hjournal, hlog⟩ := h
      refine both_of_ok hw hw' ⟨rfl, ?_⟩
      rintro _ (rfl | rfl | rfl)
      · exact hown
      · exact hjournal
      · exact hlog

theorem openPlace_of_writable {o : Opening} (hwritable : o.writable = true)
    (hmade : o.access = .create ∨ (files.node? l).isSome) : openPlace l o files = openPlace l {} files := by
  have hfrozen := not_frozen_of_writable hwritable
  have hcontent : contentAt l o files = contentAt l {} files := by
    have hget : (get : Storing FileSystem) files = .ok files files := rfl
    unfold contentAt
    rw [bind_of_ok hget, bind_of_ok hget]
    cases hnode : files.node? l with
    | some n => cases n <;> rfl
    | none =>
      have hcreate : o.access = .create := hmade.resolve_right (by rw [hnode]; exact Bool.false_ne_true)
      dsimp only
      rw [if_pos hcreate]
      rfl
  have hparts : openPlace l o = contentAt l o >>= openContent l := by
    have hread (content : Content) : readFound l o content = readFound l {} content := by
      have hfound (d : Database) : found l o d = found l {} d := by
        rw [found_of_not_frozen hfrozen, hwritable]
        rfl
      simp only [readFound, hfound]
    simp only [openPlace_eq, hfrozen, hwritable, hread]
    rfl
  rw [hparts]
  exact bind_eq_of_work_eq hcontent

theorem openPlace_of_missing {o : Opening} (haccess : o.access ≠ .create) (hnode : files.node? l = none) :
    openPlace l o files = .error (.sql "unable to open database file") files := by
  have hget : (get : Storing FileSystem) files = .ok files files := rfl
  refine bind_of_error ?_
  unfold contentAt
  rw [bind_of_ok hget, hnode]
  dsimp only
  rw [if_neg haccess]
  rfl

theorem contentAt_there (hl : l ≠ []) (o : Opening) : Ends (contentAt l o) files
    (fun content t => (∃ executable, t.node? l = some (.file content executable)) ∧
      ((files.node? l).isSome ∨ o.access = .create))
    (fun _ t => (t.node? l).isSome ↔ (files.node? l).isSome ∨ o.access = .create) := by
  refine .bind (ends_get.2 ?_)
  cases hnode : files.node? l with
  | some n => cases n with
    | file content executable => exact ⟨⟨executable, hnode⟩, .inl rfl⟩
    | directory => exact ⟨fun _ => .inl rfl, fun _ => by rw [hnode]; rfl⟩
  | none =>
    dsimp only
    split_ifs with haccess
    · exact .bind (ends_modify.2 ⟨⟨false, node?_put_self hl⟩, .inr haccess⟩)
    · refine ⟨fun h => ?_, fun h => absurd (h.resolve_left Bool.false_ne_true) haccess⟩
      rw [hnode] at h
      exact absurd h Bool.false_ne_true

theorem readFound_there (hl : l ≠ []) (o : Opening) (hsome : (files.node? l).isSome) :
    EndsIn (readFound l o content) files fun t => (t.node? l).isSome := by
  refine .bind (ends_orRefuse (fun d hd => ?_) fun _ => hsome)
  have hkept (t : FileSystem) (h : t = files ∨ o.writable = true ∧
      ∃ new, d.migrate = .ok new ∧ d.version = 0 ∧ files.writeDatabase? l new = some t) : (t.node? l).isSome := by
    rcases h with rfl | ⟨-, new, -, -, hwrite⟩
    · exact hsome
    · rw [(writeDatabase?_leaves hl hwrite).1]
      rfl
  exact (migrated_ends_in o d).imp (fun _ => hkept) fun _ => hkept

theorem isSome_node?_openPlace (hl : l ≠ []) (o : Opening) : EndsIn (openPlace l o) files fun t =>
    ((t.node? l).isSome ↔ (files.node? l).isSome ∨ o.access = .create) := by
  rw [openPlace_eq]
  refine .bind ((contentAt_there hl o).imp ?_ fun _ _ h => h)
  rintro content made ⟨⟨executable, hnode⟩, hmade⟩
  have hthere {t : FileSystem} (ht : (t.node? l).isSome) :
      (t.node? l).isSome ↔ (files.node? l).isSome ∨ o.access = .create := ⟨fun _ => hmade, fun _ => ht⟩
  have hrest {t : FileSystem} (ht : t.node? l = made.node? l) :
      EndsIn (readFound l o content) t fun after =>
        ((after.node? l).isSome ↔ (files.node? l).isSome ∨ o.access = .create) := by
    have hsome : (t.node? l).isSome := by rw [ht, hnode]; rfl
    exact (readFound_there hl o hsome).imp (fun _ _ => hthere) fun _ _ => hthere
  split_ifs
  · refine .bind ((settle_ends hl content.isUnwritten o.writable).imp ?_ ?_)
    · rintro _ settled ⟨-, hkept⟩
      exact hrest hkept
    · rintro e settled ⟨-, -, hkept⟩
      exact hthere (by rw [hkept, hnode]; rfl)
  · exact hrest rfl

end Handle
end SourceSlice
