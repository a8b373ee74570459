import SourceSlice.Proofs.Results.Reopening
/-!
# What files hold while a database is opened

Writing a file changes what one place holds (`content?_write`).  Opening a database changes no more: a file that is made
or brought to the current version stands at the database's place, and elsewhere files can only go (`NewsAt`).  So
whatever is still there afterwards is known from what was there before (`openAt_contents`).
-/
namespace SourceSlice

/-- **The content of a file that was opened as a results database**: one of version zero gets the tables it lacks. -/
def Content.opened (c : Content) : Content :=
  match c.database? with
  | none => c
  | some d => match d.migrate with
    | .error _ => c
    | .ok new => if d.version = 0 then .database new else c

theorem Content.opened_of_migrate {c : Content} {d new : Database} (hd : c.database? = some d)
    (hmigrate : d.migrate = .ok new) : c.opened = if d.version = 0 then .database new else c := by
  rw [opened, hd]
  dsimp only
  rw [hmigrate]

theorem Content.opened_of_version_ne_zero {c : Content} (h : ∀ d, c.database? = some d → d.version ≠ 0) :
    c.opened = c := by
  cases hd : c.database? with
  | none => rw [opened, hd]
  | some d => cases hmigrate : d.migrate with
    | error e =>
      rw [opened, hd]
      dsimp only
      rw [hmigrate]
    | ok new => rw [opened_of_migrate hd hmigrate, if_neg (h d hd)]

namespace FileSystem

variable {files a b c : FileSystem} {l k : Location} {p : Path} {content : Content} {executable : Bool}

def content? (files : FileSystem) (l : Location) : Option Content :=
  match files.node? l with
  | some (.file content _) => some content
  | _ => none

theorem content?_of_file (h : files.node? l = some (.file content executable)) : files.content? l = some content := by
  rw [content?, h]

theorem exists_file_of_content? (h : files.content? l = some content) :
    ∃ executable, files.node? l = some (.file content executable) := by
  unfold content? at h
  split at h
  next found executable hnode =>
    cases h
    exact ⟨executable, hnode⟩
  next => cases h

theorem content?_congr (h : b.node? k = a.node? k) : b.content? k = a.content? k := by rw [content?, content?, h]

theorem content?_put (hl : l ≠ []) (files : FileSystem) (k : Location) :
    (files.put l (.file content executable)).content? k = if k = l then some content else files.content? k := by
  rw [content?, node?_put files l k _ hl]
  by_cases hk : k = l
  · rw [if_pos hk, if_pos hk]
  · rw [if_neg hk, if_neg hk, content?]

theorem content?_write {bytes : ByteArray} (h : files.write p bytes = .ok a) (k : Location) :
    a.content? k = if k = files.spelledPlace p then some (.bytes bytes) else files.content? k := by
  unfold write at h
  cases hl : files.locateForWriting p with
  | error fault => rw [hl] at h; cases h
  | ok l =>
    rw [hl] at h
    cases h
    obtain ⟨steps, parent, name, hsteps, hwalk, -, -, -, rfl⟩ := locateForWriting_cases hl
    have hplace : files.spelledPlace p = name :: parent := by
      rw [spelledPlace, ← stepsOf_eq hsteps, List.foldl_append, ← walk_eq_foldl hwalk]
      rfl
    rw [content?_put (List.cons_ne_nil _ _), hplace]

/-! ## News at one place -/

/-- **Nothing new but at one place**: any other file that is there was there, and held the same. -/
structure NewsAt (l : Location) (before after : FileSystem) : Prop where
  current : after.current = before.current
  old : ∀ k content, k ≠ l → after.content? k = some content → before.content? k = some content

namespace NewsAt

theorem refl (a : FileSystem) : NewsAt l a a := ⟨rfl, fun _ _ _ h => h⟩

theorem trans (h : NewsAt l a b) (h' : NewsAt l b c) : NewsAt l a c where
  current := h'.current.trans h.current
  old k content hk hcontent := h.old k content hk (h'.old k content hk hcontent)

theorem erase (hk : k ≠ []) : NewsAt l files (files.erase k) where
  current := rfl
  old m content _ h := by
    rw [content?, node?_erase hk] at h
    split at h
    next hfile =>
      split_ifs at hfile
      cases h
      exact content?_of_file hfile
    next => cases h

theorem put (hl : l ≠ []) : NewsAt l files (files.put l (.file content executable)) where
  current := rfl
  old k content hk h := by rwa [content?_put hl, if_neg hk] at h

theorem writeDatabase? {d : Database} (hl : l ≠ []) (h : files.writeDatabase? l d = some a) : NewsAt l files a := by
  unfold FileSystem.writeDatabase? at h
  dsimp only at h
  split_ifs at h
  cases h
  exact (erase (beside_ne_nil hl)).trans (put hl)

end NewsAt

end FileSystem

namespace Handle

open FileSystem Work

variable {files : FileSystem} {l : Location} {content : Content}

theorem newsAt_settle (hl : l ≠ []) (unwritten writable : Bool) :
    EndsIn (settle l unwritten writable) files (NewsAt l files) := by
  unfold EndsIn Ends
  rw [settle_eq]
  cases hjournal : files.settleJournal l unwritten writable with
  | none => exact .refl files
  | some a =>
    have hfirst : NewsAt l files a := by
      rcases (settleJournal_cases hl hjournal).1 with rfl | rfl
      · exact .refl _
      · exact .erase (beside_ne_nil hl)
    dsimp only
    cases hlog : a.settleLog l unwritten writable with
    | none => exact hfirst
    | some t =>
      rcases settleLog_cases hlog with ⟨rfl, -⟩ | ⟨rfl, -⟩
      · exact hfirst
      · exact hfirst.trans (.erase (beside_ne_nil hl))

theorem contentAt_contents (hl : l ≠ []) (o : Opening) : Ends (contentAt l o) files
    (fun content made => NewsAt l files made ∧ made.content? l = some content ∧
      ∀ c, files.content? l = some c → content = c)
    (fun _ _ => True) := by
  refine .bind (ends_get.2 ?_)
  cases hnode : files.node? l with
  | some n => cases n with
    | file content executable =>
      have hcontent := content?_of_file hnode
      exact ⟨.refl files, hcontent, fun c hc => Option.some.inj (hcontent.symm.trans hc)⟩
    | directory => exact trivial
  | none =>
    dsimp only
    split_ifs
    · refine .bind (ends_modify.2 ⟨.put hl, by rw [content?_put hl, if_pos rfl], fun c hc => ?_⟩)
      rw [content?, hnode] at hc
      cases hc
    · exact trivial

theorem readFound_contents (hl : l ≠ []) (o : Opening) (hcontent : files.content? l = some content) :
    Ends (readFound l o content) files
      (fun _ after => NewsAt l files after ∧ after.content? l = some content.opened) (fun _ _ => True) := by
  refine .bind (ends_orRefuse (fun d hd => ?_) fun _ => trivial)
  refine (migrated_writes o d).imp ?_ fun _ _ _ => trivial
  rintro _ after ⟨new, hmigrate, hwritten⟩
  rw [Content.opened_of_migrate hd hmigrate]
  split_ifs at hwritten ⊢
  · exact ⟨.writeDatabase? hl hwritten.2, content?_of_file (writeDatabase?_leaves hl hwritten.2).1⟩
  · subst hwritten
    exact ⟨.refl _, hcontent⟩

/-- **Opening a place changes no file but the one that is there**, and that one as `Content.opened` says. -/
theorem openPlace_contents (hl : l ≠ []) (o : Opening) : Ends (openPlace l o) files
    (fun _ after => NewsAt l files after ∧
      ∀ c, files.content? l = some c → after.content? l = some c.opened)
    (fun _ _ => True) := by
  rw [openPlace_eq]
  refine .bind ((contentAt_contents hl o).imp ?_ fun _ _ _ => trivial)
  rintro content made ⟨hmade, hcontent, hkept⟩
  have hread {t : FileSystem} (ht : NewsAt l files t) (hcontent : t.content? l = some content) :
      Ends (readFound l o content) t
        (fun _ after => NewsAt l files after ∧
          ∀ c, files.content? l = some c → after.content? l = some c.opened)
        (fun _ _ => True) := by
    refine (readFound_contents hl o hcontent).imp ?_ fun _ _ _ => trivial
    rintro _ after ⟨hafter, hopened⟩
    exact ⟨ht.trans hafter, fun c hc => hkept c hc ▸ hopened⟩
  split_ifs
  · refine .bind (((newsAt_settle hl _ _).and (settle_ends hl _ _)).imp ?_ fun _ _ _ => trivial)
    rintro _ settled ⟨hsettled, -, hnode⟩
    exact hread (hmade.trans hsettled) ((content?_congr hnode).trans hcontent)
  · exact hread hmade hcontent

/-- **What a file holds after a database was opened**, if it is still there: what it held, or what a database of that
content becomes, where the name is for this very place. -/
theorem openAt_contents (name : Path) : Ends (openAt name) files
    (fun _ after => after.current = files.current ∧ ∀ k c c', files.content? k = some c → after.content? k = some c' →
      c' = if files.homeOf? name = some k then c.opened else c)
    (fun _ _ => True) := by
  cases hl : files.homeOf? name with
  | none =>
    refine (openAt_ends_of_none hl).imp ?_ fun _ _ _ => trivial
    rintro _ _ ⟨-, -, rfl⟩
    exact ⟨rfl, fun k c c' hc hc' => by rw [if_neg nofun]; exact Option.some.inj (hc'.symm.trans hc)⟩
  | some l =>
    obtain ⟨p, o, haddress, hp⟩ := homeOf?_eq_some.1 hl
    unfold Ends
    rw [openAt_of_file haddress]
    split_ifs
    · exact trivial
    rw [openFile_eq]
    cases hplace : files.databasePlace? p with
    | none => exact trivial
    | some m =>
      obtain ⟨rfl, hne, -⟩ := databasePlace?_some hplace
      rw [hp] at hne ⊢
      dsimp only
      split_ifs
      · exact trivial
      refine (openPlace_contents hne o).imp ?_ fun _ _ _ => trivial
      rintro _ after ⟨hnews, hopened⟩
      refine ⟨hnews.current, fun k c c' hc hc' => ?_⟩
      by_cases hk : k = l
      · subst hk
        rw [if_pos rfl]
        exact Option.some.inj (hc'.symm.trans (hopened c hc))
      · rw [if_neg fun h => hk (Option.some.inj h).symm]
        exact Option.some.inj ((hnews.old k c' hk hc').symm.trans hc)

end Handle
end SourceSlice
