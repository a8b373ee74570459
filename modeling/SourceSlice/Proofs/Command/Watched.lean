import SourceSlice.Proofs.Command.Persistence
import SourceSlice.Proofs.Results.Reopening
/-!
# Trees in which databases were looked at

Looking at a results database may give it its tables and clear away what was left beside it.  So of two trees, one in
which databases were looked at and one in which they were not, all that can be said is `Observed`: off the places of
these databases they agree, and each database comes to the same when it is opened for writing and holds the same runs
(`SameStore`).  Looking once more keeps that (`Observed.openAt`), and so does recording a run in both, which starts by
opening the database and leaves the same in both from then on (`Observed.openAt_both`).
-/
namespace SourceSlice

open Work

namespace FileSystem

variable {start files a a' b b' c : FileSystem} {names : List Path} {name : Path} {l m k : Location} {byPath : Prop}

/-! ## The databases that are looked at -/

def homes (start : FileSystem) (names : List Path) : Set Location :=
  {l | l ≠ [] ∧ ∃ name ∈ names, start.homeOf? name = some l}

def watched (start : FileSystem) (names : List Path) : Set Location :=
  {k | ∃ name ∈ names, ∃ l ∈ start.homeOf? name, l ≠ [] ∧ k ∈ databasePlaces l}

instance (start : FileSystem) (names : List Path) (k : Location) : Decidable (k ∈ watched start names) :=
  inferInstanceAs (Decidable (∃ name ∈ names, ∃ l ∈ start.homeOf? name, l ≠ [] ∧ k ∈ databasePlaces l))

/-- **No two of these databases share a file.** -/
def Separate (start : FileSystem) (names : List Path) : Prop :=
  ∀ l ∈ homes start names, ∀ m ∈ homes start names, ∀ k ∈ databasePlaces l, k ∈ databasePlaces m → m = l

/-- Whether the database at a place is looked at under no name but the path of its file. -/
def NamedByPath (start : FileSystem) (names : List Path) (l : Location) : Prop :=
  ∀ name ∈ names, start.homeOf? name = some l → Address.ofName? name.text = some (.file name {})

theorem mem_watched (hl : l ∈ homes start names) (hk : k ∈ databasePlaces l) : k ∈ watched start names := by
  obtain ⟨hne, name, hname, hhome⟩ := hl
  exact ⟨name, hname, l, hhome, hne, hk⟩

theorem Separate.off (h : start.Separate names) (hl : l ∈ homes start names) (hm : m ∈ homes start names) (hne : m ≠ l)
    (hk : k ∈ databasePlaces m) : k ∉ databasePlaces l := fun hkl => hne (h l hl m hm k hkl hk)

theorem Around.avoids {places : Set Location} {p : Path} (h : Around l a b) (hrooted : a.Rooted)
    (havoids : a.Avoids places p) : b.Avoids places p := by
  intro k hk
  rw [origin, h.current, ← origin] at hk
  refine havoids k (trail_subset (fun k hk => ?_) hk)
  rw [← (h.alike hrooted).directory k]
  exact hk

/-! ## One database -/

/-- **A database in two trees**: it comes to the same when it is opened for writing, and it holds the same runs.  Its
file is there in both or in neither, if it was looked at by its path alone. -/
structure SameStore (byPath : Prop) (l : Location) (a b : FileSystem) : Prop where
  opening : Handle.opening l b = Handle.opening l a
  runs : RunsKept l a b
  there : byPath → ((b.node? l).isSome ↔ (a.node? l).isSome)

namespace SameStore

theorem symm (h : SameStore byPath l a b) : SameStore byPath l b a :=
  ⟨h.opening.symm, ⟨h.runs.1.symm, h.runs.2.symm⟩, fun hpath => (h.there hpath).symm⟩

theorem trans (h : SameStore byPath l a b) (h' : SameStore byPath l b c) : SameStore byPath l a c :=
  ⟨h'.opening.trans h.opening, ⟨h'.runs.1.trans h.runs.1, h'.runs.2.trans h.runs.2⟩,
    fun hpath => (h'.there hpath).trans (h.there hpath)⟩

theorem of_agreeOff (hl : l ≠ []) (h : AgreeOff (databasePlaces l)ᶜ a b) : SameStore byPath l a b := by
  have hnode : b.node? l = a.node? l := h.node l fun hno => hno (Set.mem_insert _ _)
  have hat : b.databaseAt l = a.databaseAt l := databaseAt_eq hnode
  exact ⟨Handle.opening_congr hl h, ⟨by rw [hat], by rw [hat]⟩, fun _ => by rw [hnode]⟩

end SameStore

structure LeftOpened (l : Location) (o : Opening) (before after : FileSystem) : Prop where
  around : Around l before after
  opening : Handle.opening l after = Handle.opening l before
  runs : RunsKept l before after
  there : (after.node? l).isSome ↔ (before.node? l).isSome ∨ o.access = .create

theorem openPlace_leftOpened (hl : l ≠ []) (htail : files.isDirectoryAt l.tail = true) (o : Opening) :
    EndsIn (Handle.openPlace l o) files (LeftOpened l o files) := by
  have hruns : EndsIn (Handle.openPlace l o) files fun t => Around l files t ∧ RunsKept l files t :=
    (Handle.openPlace_ends hl htail o).imp (fun _ _ h => ⟨h.2.1, Command.runsKept_of_migrate (.inr h.2.2)⟩)
      fun _ _ h => ⟨h.2.1, Command.runsKept_of_migrate (.inl h.2.2)⟩
  have hends := (hruns.and (Handle.opening_absorbed hl o)).and (Handle.isSome_node?_openPlace hl o)
  have hleft (t : FileSystem) (h : ((Around l files t ∧ RunsKept l files t) ∧
      Handle.opening l t = Handle.opening l files) ∧ ((t.node? l).isSome ↔ (files.node? l).isSome ∨ o.access = .create)) :
      LeftOpened l o files t := ⟨h.1.1.1, h.1.2, h.1.1.2, h.2⟩
  exact hends.imp (fun _ => hleft) fun _ => hleft

theorem LeftOpened.sameStore {o : Opening} (h : LeftOpened l o a b) (hthere : byPath → (a.node? l).isSome) :
    SameStore byPath l a b := by
  refine ⟨h.opening, h.runs, fun hpath => ?_⟩
  rw [h.there]
  exact ⟨fun _ => hthere hpath, .inl⟩

theorem SameStore.leftOpened {o : Opening} (h : SameStore byPath l a b) (ha : LeftOpened l o a a')
    (hb : LeftOpened l o b b') : SameStore byPath l a' b' where
  opening := hb.opening.trans (h.opening.trans ha.opening.symm)
  runs := ⟨hb.runs.1.trans (h.runs.1.trans ha.runs.1.symm), hb.runs.2.trans (h.runs.2.trans ha.runs.2.symm)⟩
  there hpath := by rw [hb.there, ha.there, h.there hpath]

/-! ## All of them -/

/-- **Two trees, in the second of which databases were looked at.** -/
structure Observed (start : FileSystem) (names : List Path) (a b : FileSystem) : Prop where
  current : a.current = start.current
  rooted : a.Rooted
  rooted' : b.Rooted
  agreeOff : AgreeOff (watched start names) a b
  same : ∀ l ∈ homes start names, SameStore (NamedByPath start names l) l a b

/-- **A name under which runs are recorded in one of these databases**: none of their places is on the way there, and
the database is opened so as to be written. -/
structure RecordsIn (start : FileSystem) (names : List Path) (files : FileSystem) (name p : Path) (o : Opening) :
    Prop where
  address : Address.ofName? name.text = some (.file p o)
  home : files.spelledPlace p ∈ homes start names
  path : ∀ k ∈ databaseTrail (files.origin p) p.steps, k ∉ watched start names
  directory : (files.spelledPlace p).tail ∉ watched start names
  pattern : ∀ q ∈ o.pattern, files.Avoids (watched start names) q
  writable : o.writable = true
  made : o.access = .create ∨ NamedByPath start names (files.spelledPlace p)

/-- **A name under which runs may be recorded** while these databases are looked at: it is for another one, or for one
of them. -/
def MayRecord (start : FileSystem) (names : List Path) (files : FileSystem) (name : Path) : Prop :=
  Handle.NameAvoids files (watched start names) name ∨ ∃ p o, RecordsIn start names files name p o

theorem InStep.mayRecord (h : InStep (watched start names) b a a') (hb : MayRecord start names b name) :
    MayRecord start names a name := by
  rcases hb with hb | ⟨p, o, hb⟩
  · exact .inl fun p o haddress => h.avoidsDatabase (hb p o haddress)
  · have horigin := origin_congr h.current p
    have hplace := spelledPlace_congr h.current p
    refine .inr ⟨p, o, hb.address, ?_, ?_, ?_, fun q hq => h.avoids (hb.pattern q hq), hb.writable, ?_⟩
    · rw [hplace]; exact hb.home
    · rw [horigin]; exact hb.path
    · rw [hplace]; exact hb.directory
    · rw [hplace]; exact hb.made

namespace Observed

variable (h : Observed start names a b)

theorem refl (hrooted : start.Rooted) : Observed start names start start :=
  ⟨rfl, hrooted, hrooted, ⟨rfl, fun _ _ => rfl⟩, fun _ hl => .of_agreeOff hl.1 ⟨rfl, fun _ _ => rfl⟩⟩

include h

theorem of_kept (hcurrent : a'.current = a.current) (hrooted : a'.Rooted) (hrooted' : b'.Rooted)
    (hagree : AgreeOff (watched start names) a' b') (hkept : ∀ k ∈ watched start names, a'.node? k = a.node? k)
    (hkept' : ∀ k ∈ watched start names, b'.node? k = b.node? k) : Observed start names a' b' where
  current := hcurrent.trans h.current
  rooted := hrooted
  rooted' := hrooted'
  agreeOff := hagree
  same l hl := by
    have hat (k : Location) (hk : k ∉ (databasePlaces l)ᶜ) : k ∈ watched start names :=
      mem_watched hl (not_not.1 hk)
    have hcurrent' : b'.current = b.current := by rw [hagree.current, hcurrent, h.agreeOff.current]
    have ha : SameStore (NamedByPath start names l) l a a' :=
      .of_agreeOff hl.1 ⟨hcurrent, fun k hk => hkept k (hat k hk)⟩
    have hb : SameStore (NamedByPath start names l) l b b' :=
      .of_agreeOff hl.1 ⟨hcurrent', fun k hk => hkept' k (hat k hk)⟩
    exact ha.symm.trans ((h.same l hl).trans hb)

theorem of_around (hseparate : start.Separate names) (hl : l ∈ homes start names) (ha : Around l a a')
    (hb : Around l b b') (hsame : SameStore (NamedByPath start names l) l a' b') : Observed start names a' b' where
  current := ha.current.trans h.current
  rooted := ha.rooted h.rooted
  rooted' := hb.rooted h.rooted'
  agreeOff.current := by rw [hb.current, ha.current, h.agreeOff.current]
  agreeOff.node k hk := by
    have hoff : k ∉ databasePlaces l := fun hkl => hk (mem_watched hl hkl)
    rw [(ha.alike h.rooted).node k hoff, (hb.alike h.rooted').node k hoff, h.agreeOff.node k hk]
  same m hm := by
    by_cases hne : m = l
    · exact hne ▸ hsame
    · have hoff (k : Location) (hk : k ∉ (databasePlaces m)ᶜ) : k ∉ databasePlaces l :=
        hseparate.off hl hm hne (not_not.1 hk)
      have hama : SameStore (NamedByPath start names m) m a a' :=
        .of_agreeOff hm.1 ⟨ha.current, fun k hk => (ha.alike h.rooted).node k (hoff k hk)⟩
      have hbmb : SameStore (NamedByPath start names m) m b b' :=
        .of_agreeOff hm.1 ⟨hb.current, fun k hk => (hb.alike h.rooted').node k (hoff k hk)⟩
      exact hama.symm.trans ((h.same m hm).trans hbmb)

theorem homeOf?_eq (name : Path) : b.homeOf? name = start.homeOf? name :=
  Handle.homeOf?_eq (h.agreeOff.current.trans h.current) name

theorem openAt (hseparate : start.Separate names) (hname : name ∈ names) (hfile : b.isFile name = true) :
    EndsIn (Handle.openAt name) b (Observed start names a) := by
  cases hhome : b.homeOf? name with
  | none =>
    refine (Handle.openAt_ends_of_none hhome).imp ?_ ?_
    · rintro handle after ⟨-, -, rfl⟩
      exact h
    · rintro e after ⟨-, rfl⟩
      exact h
  | some l =>
    obtain ⟨p, o, haddress, hp⟩ := Handle.homeOf?_eq_some.1 hhome
    unfold EndsIn Ends
    rw [Handle.openAt_of_file haddress]
    split_ifs
    · exact h
    rw [Handle.openFile_eq]
    cases hplace : b.databasePlace? p with
    | none => exact h
    | some k =>
      obtain ⟨rfl, hne, htail⟩ := Handle.databasePlace?_some hplace
      rw [hp] at hne htail ⊢
      have hl : l ∈ homes start names := ⟨hne, name, hname, (h.homeOf?_eq name).symm.trans hhome⟩
      have hthere (hpath : NamedByPath start names l) : (b.node? l).isSome := by
        have hself := hpath name hname ((h.homeOf?_eq name).symm.trans hhome)
        rw [haddress] at hself
        cases hself
        exact hp ▸ isSome_node?_of_isFile hfile
      have hlooked (t : FileSystem) (ht : LeftOpened l o b t) : Observed start names a t :=
        h.of_around hseparate hl (.refl a) ht.around ((h.same l hl).trans (ht.sameStore hthere))
      dsimp only
      split_ifs
      · exact h
      · exact (openPlace_leftOpened hne htail o).imp (fun _ => hlooked) fun _ => hlooked

theorem openPlace_both (hseparate : start.Separate names) (hl : l ∈ homes start names)
    (ha : a.isDirectoryAt l.tail = true) (hb : b.isDirectoryAt l.tail = true) {o : Opening}
    (hwritable : o.writable = true) (hmade : o.access = .create ∨ NamedByPath start names l) :
    Both (Handle.openPlace l o) (Handle.openPlace l o) a b
      (fun handle t handle' t' => handle' = handle ∧ handle = .file l true ∧ Observed start names t t' ∧
        AgreeOff (databasePlaces l)ᶜ t t') (Observed start names) := by
  have hsame := h.same l hl
  by_cases hsome : o.access = .create ∨ (a.node? l).isSome
  · have hsome' : o.access = .create ∨ (b.node? l).isSome :=
      hmade.elim .inl fun hpath => hsome.imp_right (hsame.there hpath).2
    have hleft := openPlace_leftOpened hl.1 ha {}
    have hleft' := openPlace_leftOpened hl.1 hb {}
    have hhandle := Handle.openPlace_ends hl.1 ha {}
    unfold Both
    rw [Handle.openPlace_of_writable hwritable hsome, Handle.openPlace_of_writable hwritable hsome']
    rcases (Handle.both_of_opening hsame.opening).cases with
      ⟨handle, t, _, t', hw, hw', rfl, hnodes⟩ | ⟨e, t, t', hw, hw', -⟩
    · rw [hw, hw']
      have ht := hleft.of_ok hw
      have ht' := hleft'.of_ok hw'
      have hagree : AgreeOff (databasePlaces l)ᶜ t t' := by
        refine ⟨?_, fun k hk => hnodes k (not_not.1 hk)⟩
        rw [ht'.around.current, ht.around.current, h.agreeOff.current]
      exact ⟨rfl, (hhandle.of_ok hw).1,
        h.of_around hseparate hl ht.around ht'.around (.of_agreeOff hl.1 hagree), hagree⟩
    · rw [hw, hw']
      have ht := hleft.of_error hw
      have ht' := hleft'.of_error hw'
      exact ⟨rfl, h.of_around hseparate hl ht.around ht'.around (hsame.leftOpened ht ht')⟩
  · -- the file must be there and is in neither
    rw [not_or] at hsome
    have hnode : a.node? l = none := Option.not_isSome_iff_eq_none.1 hsome.2
    have hnode' : b.node? l = none := by
      rw [← Option.not_isSome_iff_eq_none, hsame.there (hmade.resolve_left hsome.1)]
      exact hsome.2
    exact both_of_error (Handle.openPlace_of_missing hsome.1 hnode) (Handle.openPlace_of_missing hsome.1 hnode') h

theorem openAt_both (hseparate : start.Separate names) {p : Path} {o : Opening}
    (hrecords : RecordsIn start names a name p o) :
    Both (Handle.openAt name) (Handle.openAt name) a b
      (fun handle t handle' t' => handle' = handle ∧ handle = .file (a.spelledPlace p) true ∧
        Observed start names t t' ∧ AgreeOff (databasePlaces (a.spelledPlace p))ᶜ t t') (Observed start names) := by
  unfold Both
  rw [Handle.openAt_of_file hrecords.address, Handle.openAt_of_file hrecords.address]
  split_ifs
  · exact ⟨rfl, h⟩
  rw [Handle.openFile_eq, Handle.openFile_eq, h.agreeOff.databasePlace? hrecords.path hrecords.directory]
  cases hplace : a.databasePlace? p with
  | none => exact ⟨rfl, h⟩
  | some l =>
    obtain ⟨rfl, -, htail⟩ := Handle.databasePlace?_some hplace
    dsimp only
    rw [h.agreeOff.lacksPattern hrecords.pattern]
    split_ifs
    · exact ⟨rfl, h⟩
    · refine h.openPlace_both hseparate hrecords.home htail ?_ hrecords.writable hrecords.made
      rw [h.agreeOff.isDirectoryAt hrecords.directory]
      exact htail

end Observed

end FileSystem
end SourceSlice
