import Mathlib.Data.Set.Insert
import SourceSlice.FileSystem
/-!
# Trees of files

In a rooted tree everything stands in a directory.  `Alike` compares two trees that have the same directories and differ
in some files only; a walk that leads to any other place leads there in both (`Alike.walk`), and a file there is read
alike.  A file that was written is read back from its path (`write_ok`).
-/
namespace SourceSlice.FileSystem

variable {files a b c : FileSystem} {l k : Location} {n : Node} {p : Path}

def Rooted (files : FileSystem) : Prop := ∀ entry ∈ files.nodes, files.isDirectoryAt entry.1.tail = true

instance (files : FileSystem) : Decidable files.Rooted :=
  inferInstanceAs (Decidable (∀ entry ∈ files.nodes, files.isDirectoryAt entry.1.tail = true))

theorem isDirectoryAt_eq_true : files.isDirectoryAt l = true ↔ files.node? l = some .directory := by
  unfold isDirectoryAt
  cases h : files.node? l with
  | none => simp
  | some n => cases n <;> simp [Node.isDirectory]

theorem not_isDirectoryAt_of_file {content : Content} {executable : Bool}
    (h : files.node? l = some (.file content executable)) : files.isDirectoryAt l ≠ true := by
  intro hd
  rw [isDirectoryAt_eq_true, h] at hd
  cases hd

theorem ne_nil_of_not_isDirectoryAt (h : files.isDirectoryAt l ≠ true) : l ≠ [] := by
  rintro rfl
  exact h rfl

theorem mem_nodes_of_node? (hl : l ≠ []) (h : files.node? l = some n) : (l, n) ∈ files.nodes := by
  rw [node?, if_neg hl] at h
  exact Association.mem_of_get? h

theorem Rooted.isDirectoryAt_tail (h : files.Rooted) (hl : (files.node? l).isSome) :
    files.isDirectoryAt l.tail = true := by
  by_cases hnil : l = []
  · subst hnil; rfl
  · obtain ⟨n, hn⟩ := Option.isSome_iff_exists.1 hl
    exact h _ (mem_nodes_of_node? hnil hn)

theorem Rooted.isDirectoryAt_of_suffix (h : files.Rooted) (hk : l <:+ k) (hne : l ≠ k)
    (hnode : (files.node? k).isSome) : files.isDirectoryAt l = true := by
  induction k with
  | nil => exact absurd (List.suffix_nil.1 hk) hne
  | cons name k ih =>
    have htail : files.isDirectoryAt k = true := h.isDirectoryAt_tail hnode
    rcases List.suffix_cons_iff.1 hk with e | hk
    · exact absurd e hne
    · by_cases e : l = k
      · exact e ▸ htail
      · exact ih hk e (by rw [isDirectoryAt_eq_true.1 htail]; rfl)

/-! ## Where paths start -/

theorem origin_congr (h : b.current = a.current) (p : Path) : b.origin p = a.origin p := by rw [origin, origin, h]

theorem spelledPlace_congr (h : b.current = a.current) (p : Path) : b.spelledPlace p = a.spelledPlace p := by
  rw [spelledPlace, spelledPlace, origin_congr h]

theorem stepsOf_eq {steps : List Path.Step} (h : stepsOf p = .ok steps) : steps = p.steps := by
  unfold stepsOf at h
  split_ifs at h
  exact (Except.ok.inj h).symm

/-! ## Erasing -/

theorem node?_erase (hl : l ≠ []) (files : FileSystem) (k : Location) :
    (files.erase l).node? k = if l <:+ k then none else files.node? k := by
  have hkeep : (!l.isSuffixOf k) = true ↔ ¬ l <:+ k := by
    rw [Bool.not_eq_true', ← Bool.not_eq_true, List.isSuffixOf_iff_suffix]
  have hfilter := Association.get?_filter (fun k => !l.isSuffixOf k) k files.nodes
  change Association.get? k (files.erase l).nodes = _ at hfilter
  by_cases h : l <:+ k
  · have hk : k ≠ [] := fun e => hl (List.suffix_nil.1 (e ▸ h))
    rw [if_neg (fun hp => hkeep.1 hp h)] at hfilter
    rw [if_pos h, node?, if_neg hk, hfilter]
  · rw [if_pos (hkeep.2 h)] at hfilter
    rw [if_neg h, node?, node?, hfilter]

theorem Rooted.node?_erase (h : files.Rooted) (hl : files.isDirectoryAt l ≠ true) (hk : k ≠ l) :
    (files.erase l).node? k = files.node? k := by
  rw [FileSystem.node?_erase (ne_nil_of_not_isDirectoryAt hl)]
  split
  next hsuffix =>
    cases hnode : files.node? k with
    | none => rfl
    | some n => exact absurd (h.isDirectoryAt_of_suffix hsuffix (Ne.symm hk) (by rw [hnode]; rfl)) hl
  next => rfl

theorem isDirectoryAt_erase (h : files.Rooted) (hl : files.isDirectoryAt l ≠ true) (k : Location) :
    (files.erase l).isDirectoryAt k = files.isDirectoryAt k := by
  by_cases hk : k = l
  · have hsame : (files.erase k).node? k = none := by
      rw [FileSystem.node?_erase (ne_nil_of_not_isDirectoryAt (hk ▸ hl)), if_pos (List.suffix_refl k)]
    rw [← hk] at hl ⊢
    rw [Bool.eq_false_iff.2 hl, isDirectoryAt, hsame]
    rfl
  · rw [isDirectoryAt, isDirectoryAt, h.node?_erase hl hk]

theorem Rooted.erase (h : files.Rooted) (hl : files.isDirectoryAt l ≠ true) : (files.erase l).Rooted := by
  intro entry hentry
  rw [isDirectoryAt_erase h hl]
  exact h entry (List.mem_filter.1 hentry).1

/-! ## Putting -/

theorem node?_put_self (hl : l ≠ []) : (files.put l n).node? l = some n := by
  rw [node?_put files l l n hl, if_pos rfl]

theorem isDirectoryAt_put (hl : files.isDirectoryAt l ≠ true) {content : Content} {executable : Bool} (k : Location) :
    (files.put l (.file content executable)).isDirectoryAt k = files.isDirectoryAt k := by
  rw [isDirectoryAt, isDirectoryAt, node?_put files l k _ (ne_nil_of_not_isDirectoryAt hl)]
  by_cases hk : k = l
  · subst hk
    rw [if_pos rfl, ← isDirectoryAt, Bool.eq_false_iff.2 hl]
    rfl
  · rw [if_neg hk]

theorem Rooted.put (h : files.Rooted) (hl : files.isDirectoryAt l ≠ true) (htail : files.isDirectoryAt l.tail = true)
    {content : Content} {executable : Bool} : (files.put l (.file content executable)).Rooted := by
  intro entry hentry
  rw [isDirectoryAt_put hl]
  rcases List.mem_cons.1 hentry with rfl | hentry
  · exact htail
  · exact h entry (List.mem_filter.1 hentry).1

/-! ## Trees that differ in some files -/

/-- **Two trees alike but for some places**, at which no directory stands in either. -/
structure Alike (places : Set Location) (a b : FileSystem) : Prop where
  current : b.current = a.current
  node : ∀ k ∉ places, b.node? k = a.node? k
  directory : ∀ k, b.isDirectoryAt k = a.isDirectoryAt k

namespace Alike

variable {places : Set Location}

theorem refl (a : FileSystem) : Alike places a a := ⟨rfl, fun _ _ => rfl, fun _ => rfl⟩

theorem trans (h : Alike places a b) (h' : Alike places b c) : Alike places a c where
  current := h'.current.trans h.current
  node k hk := (h'.node k hk).trans (h.node k hk)
  directory k := (h'.directory k).trans (h.directory k)

theorem mono {more : Set Location} (h : Alike places a b) (hmore : places ⊆ more) : Alike more a b where
  current := h.current
  node k hk := h.node k fun hp => hk (hmore hp)
  directory := h.directory

theorem put (hl : files.isDirectoryAt l ≠ true) (hmem : l ∈ places) {content : Content} {executable : Bool} :
    Alike places files (files.put l (.file content executable)) where
  current := rfl
  node k hk := by
    have hne : k ≠ l := fun e => hk (e ▸ hmem)
    rw [node?_put files l k _ (ne_nil_of_not_isDirectoryAt hl), if_neg hne]
  directory := isDirectoryAt_put hl

theorem erase (hrooted : files.Rooted) (hl : files.isDirectoryAt l ≠ true) (hmem : l ∈ places) :
    Alike places files (files.erase l) where
  current := rfl
  node _ hk := hrooted.node?_erase hl fun e => hk (e ▸ hmem)
  directory := isDirectoryAt_erase hrooted hl

theorem node?_of_directory (h : Alike places a b) (hk : a.node? k = some .directory) : b.node? k = some .directory := by
  rw [← isDirectoryAt_eq_true, h.directory, isDirectoryAt_eq_true]
  exact hk

theorem isSome_node? (h : Alike places a b) (hk : k ∉ places ∨ a.node? k = some .directory)
    (hsome : (a.node? k).isSome) : (b.node? k).isSome := by
  rcases hk with hk | hk
  · rw [h.node k hk]; exact hsome
  · rw [h.node?_of_directory hk]; rfl

theorem step (h : Alike places a b) {s : Path.Step} (hstep : a.step l s = .ok k)
    (hk : k ∉ places ∨ a.node? k = some .directory) : b.step l s = .ok k := by
  unfold FileSystem.step at hstep ⊢
  cases hl : a.node? l with
  | none => rw [hl] at hstep; cases hstep
  | some n => cases n with
    | file content executable => rw [hl] at hstep; cases hstep
    | directory =>
      rw [hl] at hstep
      rw [h.node?_of_directory hl]
      cases s with
      | here => exact hstep
      | up => exact hstep
      | name name =>
        dsimp only at hstep ⊢
        split at hstep
        next => cases hstep
        next hlength =>
          rw [if_neg hlength]
          split at hstep
          next => cases hstep
          next hsome =>
            cases hstep
            rw [if_neg]
            rw [Option.isNone_iff_eq_none, ← ne_eq, Option.ne_none_iff_isSome] at hsome ⊢
            exact h.isSome_node? hk hsome

/-- **A walk that ends outside of the places ends there in both trees**: on its way it meets directories alone. -/
theorem walk (h : Alike places a b) (hk : k ∉ places ∨ a.node? k = some .directory) :
    ∀ {steps : List Path.Step} {l : Location}, a.walk l steps = .ok k → b.walk l steps = .ok k
  | [], _, hwalk => hwalk
  | s :: rest, l, hwalk => by
    rw [FileSystem.walk] at hwalk ⊢
    cases hstep : a.step l s with
    | error fault => rw [hstep] at hwalk; cases hwalk
    | ok m =>
      rw [hstep] at hwalk
      have hm : m ∉ places ∨ a.node? m = some .directory := by
        cases rest with
        | nil =>
          cases hwalk
          exact hk
        | cons s' rest' =>
          -- The next step is taken from `m`, and only from a directory can one be taken.
          refine .inr ?_
          dsimp only at hwalk
          rw [FileSystem.walk] at hwalk
          unfold FileSystem.step at hwalk
          cases hmnode : a.node? m with
          | none => rw [hmnode] at hwalk; cases hwalk
          | some n => cases n with
            | directory => rfl
            | file content executable => rw [hmnode] at hwalk; cases hwalk
      rw [h.step hstep hm]
      exact h.walk hk hwalk

theorem locate (h : Alike places a b) (hlocate : a.locate p = .ok k) (hk : k ∉ places) : b.locate p = .ok k := by
  rw [FileSystem.locate] at hlocate ⊢
  cases hsteps : stepsOf p with
  | error fault => rw [hsteps] at hlocate; cases hlocate
  | ok steps =>
    rw [hsteps] at hlocate
    rw [origin_congr h.current]
    exact h.walk (.inl hk) hlocate

theorem read (h : Alike places a b) (hlocate : a.locate p = .ok k) (hk : k ∉ places) : b.read p = a.read p := by
  rw [FileSystem.read, FileSystem.read, FileSystem.find, FileSystem.find, hlocate, h.locate hlocate hk]
  simp only [h.node k hk]

end Alike

/-! ## Writing a file -/

theorem walk_append {rest : List Path.Step} : ∀ {steps : List Path.Step} {l m : Location},
    files.walk l steps = .ok m → files.walk l (steps ++ rest) = files.walk m rest
  | [], _, _, h => by cases h; rfl
  | s :: steps, l, m, h => by
    rw [List.cons_append, walk]
    rw [walk] at h
    cases hstep : files.step l s with
    | error fault => rw [hstep] at h; cases h
    | ok k =>
      rw [hstep] at h
      exact walk_append h

theorem locateForWriting_cases (h : files.locateForWriting p = .ok l) : ∃ steps parent name,
    stepsOf p = .ok (steps ++ [.name name]) ∧ files.walk (files.origin p) steps = .ok parent ∧
      files.node? parent = some .directory ∧ name.utf8ByteSize ≤ longestName ∧
      files.isDirectoryAt (name :: parent) ≠ true ∧ l = name :: parent := by
  rw [locateForWriting] at h
  cases hsteps : stepsOf p with
  | error fault => rw [hsteps] at h; cases h
  | ok steps =>
    have hp := stepsOf_eq hsteps
    cases hwalk : files.walk (files.origin p) p.spelled.dropLast with
    | error fault => rw [hsteps, hwalk] at h; cases h
    | ok parent =>
      rw [hsteps, hwalk] at h
      dsimp only at h
      split at h
      next => cases h
      next => cases h
      next name hlast hparent =>
        split_ifs at h with hclosed hlength hdirectory
        refine ⟨p.spelled.dropLast, parent, name, ?_, hwalk, hparent, Nat.le_of_not_lt hlength, hdirectory,
          (Except.ok.inj h).symm⟩
        obtain ⟨_, hspelled⟩ := List.getLast?_eq_some_iff.1 hlast
        rw [hp, Path.steps, if_neg hclosed, List.append_nil, hspelled, List.dropLast_concat]
      next => cases h

theorem locate_put (h : files.locateForWriting p = .ok l) {content : Content} {executable : Bool} :
    (files.put l (.file content executable)).locate p = .ok l := by
  obtain ⟨steps, parent, name, hsteps, hwalk, hparent, hlength, hl, rfl⟩ := locateForWriting_cases h
  have halike : Alike {name :: parent} files (files.put (name :: parent) (.file content executable)) :=
    .put hl (Set.mem_singleton _)
  rw [locate, hsteps]
  change walk _ (files.origin p) _ = _
  rw [walk_append (halike.walk (.inr hparent) hwalk), walk, step, halike.node?_of_directory hparent]
  dsimp only
  rw [if_neg (Nat.not_lt.2 hlength), node?_put files _ _ _ (List.cons_ne_nil _ _), if_pos rfl]
  rfl

/-- **A file that is written is read back**, and no other file changes. -/
theorem write_ok {bytes : ByteArray} (h : files.write p bytes = .ok a) : ∃ l, files.locateForWriting p = .ok l ∧
    Alike {l} files a ∧ (files.Rooted → a.Rooted) ∧ a.locate p = .ok l ∧ a.read p = .ok bytes := by
  rw [write] at h
  cases hlocate : files.locateForWriting p with
  | error fault => rw [hlocate] at h; cases h
  | ok l =>
    rw [hlocate] at h
    cases h
    obtain ⟨_, _, _, -, -, hparent, -, hl, rfl⟩ := locateForWriting_cases hlocate
    refine ⟨_, rfl, .put hl (Set.mem_singleton _), fun hrooted => hrooted.put hl ?_, locate_put hlocate, ?_⟩
    · exact isDirectoryAt_eq_true.2 hparent
    · rw [read, find, locate_put hlocate]
      dsimp only
      rw [node?_put files _ _ _ (List.cons_ne_nil _ _), if_pos rfl]
      rfl

end SourceSlice.FileSystem
