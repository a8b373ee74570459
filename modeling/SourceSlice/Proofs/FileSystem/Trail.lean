import Mathlib.Data.Set.Insert
import SourceSlice.Proofs.FileSystem.Tree
/-!
# Places that a path does not come to

All that a walk sees of a tree is what stands at the places it comes to, its `trail`.  In two trees that agree off some
places (`AgreeOff`) a path that comes to none of these (`Avoids`) finds the same, and writing to it writes to one place.

Two runs that began in such trees are `InStep` as long as their trees agree.  Putting and erasing a file in both keeps
them in step, and a path keeps to its trail meanwhile.
-/
namespace SourceSlice.FileSystem

variable {places : Set Location} {a a' b : FileSystem} {l k : Location} {p : Path}

def trail (files : FileSystem) : Location → List Path.Step → List Location
  | l, [] => [l]
  | l, s :: rest => l :: if files.isDirectoryAt l then files.trail (l.after s) rest else []

/-- **A path that comes to none of these places.** -/
def Avoids (files : FileSystem) (places : Set Location) (p : Path) : Prop :=
  ∀ k ∈ files.trail (files.origin p) p.steps, k ∉ places

instance (files : FileSystem) (places : Set Location) [DecidablePred (· ∈ places)] (p : Path) :
    Decidable (files.Avoids places p) :=
  inferInstanceAs (Decidable (∀ k ∈ files.trail (files.origin p) p.steps, k ∉ places))

/-- **Two trees agree off some places.** -/
structure AgreeOff (places : Set Location) (a b : FileSystem) : Prop where
  current : b.current = a.current
  node : ∀ k ∉ places, b.node? k = a.node? k

theorem mem_trail_self (files : FileSystem) (l : Location) (steps : List Path.Step) : l ∈ files.trail l steps := by
  cases steps with
  | nil => exact List.mem_singleton_self l
  | cons s rest => exact List.mem_cons_self

theorem mem_trail_append {rest : List Path.Step} : ∀ {steps : List Path.Step} {l : Location},
    k ∈ a.trail l steps → k ∈ a.trail l (steps ++ rest)
  | [], l, h => List.mem_singleton.1 h ▸ mem_trail_self a l rest
  | s :: steps, l, h => by
    rw [List.cons_append, trail, List.mem_cons]
    rw [trail, List.mem_cons] at h
    refine h.imp_right fun h => ?_
    split
    next hd =>
      rw [if_pos hd] at h
      exact mem_trail_append h
    next hd =>
      rw [if_neg hd] at h
      cases h

theorem trail_subset (hdirectory : ∀ k, a.isDirectoryAt k = true → b.isDirectoryAt k = true) :
    ∀ {steps : List Path.Step} {l : Location}, k ∈ a.trail l steps → k ∈ b.trail l steps
  | [], _, h => h
  | s :: steps, l, h => by
    rw [trail, List.mem_cons] at h ⊢
    refine h.imp_right fun h => ?_
    split at h
    next hd =>
      rw [if_pos (hdirectory l hd)]
      exact trail_subset hdirectory h
    next => cases h

/-! ## Walking -/

theorem isDirectoryAt_of_step {s : Path.Step} (h : a.step l s = .ok k) : a.isDirectoryAt l = true ∧ k = l.after s := by
  unfold step at h
  rw [isDirectoryAt_eq_true]
  cases hl : a.node? l with
  | none => rw [hl] at h; cases h
  | some n => cases n with
    | file content executable => rw [hl] at h; cases h
    | directory =>
      rw [hl] at h
      refine ⟨rfl, ?_⟩
      cases s with
      | here => exact (Except.ok.inj h).symm
      | up => exact (Except.ok.inj h).symm
      | name name =>
        dsimp only at h
        split_ifs at h
        exact (Except.ok.inj h).symm

theorem step_congr {s : Path.Step} (hl : b.node? l = a.node? l)
    (hnext : a.isDirectoryAt l = true → b.node? (l.after s) = a.node? (l.after s)) : b.step l s = a.step l s := by
  unfold step
  rw [hl]
  cases hnode : a.node? l with
  | none => rfl
  | some n => cases n with
    | file content executable => rfl
    | directory => cases s with
      | here => rfl
      | up => rfl
      | name name =>
        have hthere : b.node? (name :: l) = a.node? (name :: l) := hnext (isDirectoryAt_eq_true.2 hnode)
        dsimp only
        rw [hthere]

theorem after_mem_trail {s : Path.Step} {rest : List Path.Step} : ∀ {steps : List Path.Step} {l : Location},
    a.walk l steps = .ok k → a.isDirectoryAt k = true → k.after s ∈ a.trail l (steps ++ s :: rest)
  | [], l, hwalk, hd => by
    cases hwalk
    rw [List.nil_append, trail, if_pos hd]
    exact List.mem_cons_of_mem _ (mem_trail_self a _ rest)
  | t :: steps, l, hwalk, hd => by
    rw [FileSystem.walk] at hwalk
    cases hstep : a.step l t with
    | error fault => rw [hstep] at hwalk; cases hwalk
    | ok m =>
      rw [hstep] at hwalk
      obtain ⟨hl, rfl⟩ := isDirectoryAt_of_step hstep
      rw [List.cons_append, trail, if_pos hl]
      exact List.mem_cons_of_mem _ (after_mem_trail hwalk hd)

theorem AgreeOff.walk (h : AgreeOff places a b) : ∀ {steps : List Path.Step} {l : Location},
    (∀ k ∈ a.trail l steps, k ∉ places) →
      b.walk l steps = a.walk l steps ∧ ∀ m, a.walk l steps = .ok m → m ∉ places
  | [], l, havoids => ⟨rfl, fun m hm => Except.ok.inj hm ▸ havoids l (List.mem_singleton_self l)⟩
  | s :: rest, l, havoids => by
    have hnext (hd : a.isDirectoryAt l = true) : ∀ k ∈ a.trail (l.after s) rest, k ∉ places := by
      rw [trail, if_pos hd] at havoids
      exact fun k hk => havoids k (List.mem_cons_of_mem _ hk)
    have hstep : b.step l s = a.step l s :=
      step_congr (h.node l (havoids l (mem_trail_self a l _))) fun hd =>
        h.node _ (hnext hd _ (mem_trail_self a _ rest))
    rw [FileSystem.walk, FileSystem.walk, hstep]
    cases hs : a.step l s with
    | error fault => exact ⟨rfl, fun _ h => by cases h⟩
    | ok m =>
      obtain ⟨hd, rfl⟩ := isDirectoryAt_of_step hs
      exact h.walk (hnext hd)

theorem walk_eq_foldl : ∀ {steps : List Path.Step} {l : Location},
    a.walk l steps = .ok k → k = steps.foldl Location.after l
  | [], _, h => (Except.ok.inj h).symm
  | s :: rest, l, h => by
    rw [walk] at h
    cases hstep : a.step l s with
    | error fault => rw [hstep] at h; cases h
    | ok m =>
      rw [hstep] at h
      obtain ⟨-, rfl⟩ := isDirectoryAt_of_step hstep
      rw [List.foldl_cons]
      exact walk_eq_foldl h

theorem locate_eq_spelledPlace (h : a.locate p = .ok l) : l = a.spelledPlace p := by
  unfold locate at h
  cases hsteps : stepsOf p with
  | error fault => rw [hsteps] at h; cases h
  | ok steps =>
    rw [hsteps] at h
    obtain rfl := stepsOf_eq hsteps
    exact walk_eq_foldl h

theorem node?_of_find {n : Node} (h : a.find p = .ok n) : a.node? (a.spelledPlace p) = some n := by
  unfold find at h
  cases hlocate : a.locate p with
  | error fault => rw [hlocate] at h; cases h
  | ok l =>
    rw [hlocate] at h
    obtain rfl := locate_eq_spelledPlace hlocate
    dsimp only at h
    cases hnode : a.node? (a.spelledPlace p) with
    | none => rw [hnode] at h; cases h
    | some m => rw [hnode] at h; rw [Except.ok.inj h]

theorem exists_find_of_isFile (h : a.isFile p = true) :
    ∃ content executable, a.find p = .ok (.file content executable) := by
  unfold isFile at h
  split at h
  next content executable hfind => exact ⟨content, executable, hfind⟩
  next => cases h

theorem isSome_node?_of_isFile (h : a.isFile p = true) : (a.node? (a.spelledPlace p)).isSome := by
  obtain ⟨content, executable, hfind⟩ := exists_find_of_isFile h
  rw [node?_of_find hfind]
  rfl

namespace AgreeOff

variable (h : AgreeOff places a b) (havoids : a.Avoids places p)

include h

theorem origin (p : Path) : b.origin p = a.origin p := origin_congr h.current p

theorem isDirectoryAt (hk : k ∉ places) : b.isDirectoryAt k = a.isDirectoryAt k := by
  rw [FileSystem.isDirectoryAt, FileSystem.isDirectoryAt, h.node k hk]

theorem executableAt (hk : k ∉ places) : b.executableAt k = a.executableAt k := by
  rw [FileSystem.executableAt, FileSystem.executableAt, h.node k hk]

include havoids

theorem locate : b.locate p = a.locate p ∧ ∀ m, a.locate p = .ok m → m ∉ places := by
  rw [FileSystem.locate, FileSystem.locate, h.origin p]
  cases hsteps : stepsOf p with
  | error fault => exact ⟨rfl, fun _ h => by cases h⟩
  | ok steps =>
    rw [stepsOf_eq hsteps]
    exact h.walk havoids

theorem find : b.find p = a.find p := by
  obtain ⟨hlocate, hplace⟩ := h.locate havoids
  rw [FileSystem.find, FileSystem.find, hlocate]
  cases hm : a.locate p with
  | error fault => rfl
  | ok m =>
    dsimp only
    rw [h.node m (hplace m hm)]

theorem isFile : b.isFile p = a.isFile p := by rw [FileSystem.isFile, FileSystem.isFile, h.find havoids]

theorem read : b.read p = a.read p := by rw [FileSystem.read, FileSystem.read, h.find havoids]

theorem locateForWriting : b.locateForWriting p = a.locateForWriting p ∧
    ∀ m, a.locateForWriting p = .ok m → m ∉ places := by
  have hspelled : ∀ k ∈ a.trail (a.origin p) p.spelled, k ∉ places := fun k hk => havoids k (mem_trail_append hk)
  rw [FileSystem.locateForWriting, FileSystem.locateForWriting, h.origin p]
  cases hsteps : stepsOf p with
  | error fault => exact ⟨rfl, fun _ h => by cases h⟩
  | ok steps =>
    dsimp only
    rcases List.eq_nil_or_concat p.spelled with hnil | ⟨steps, s, hconcat⟩
    · -- no step is taken, and the place that the path starts from is no place for a file
      rw [hnil] at hspelled ⊢
      have hnode := h.node (a.origin p) (hspelled _ (mem_trail_self a _ []))
      simp only [List.dropLast_nil, List.getLast?_nil, FileSystem.walk, hnode]
      cases a.node? (a.origin p) with
      | none => exact ⟨rfl, fun _ h => by cases h⟩
      | some n => cases n <;> exact ⟨rfl, fun _ h => by cases h⟩
    · rw [List.concat_eq_append] at hconcat
      rw [hconcat] at hspelled ⊢
      rw [List.dropLast_concat, List.getLast?_concat]
      obtain ⟨hwalk, hparent⟩ := h.walk fun k hk => hspelled k (mem_trail_append hk)
      rw [hwalk]
      cases hw : a.walk (a.origin p) steps with
      | error fault => exact ⟨rfl, fun _ h => by cases h⟩
      | ok parent =>
        dsimp only
        rw [h.node parent (hparent parent hw)]
        cases hnode : a.node? parent with
        | none => exact ⟨rfl, fun _ h => by cases h⟩
        | some n => cases n with
          | file content executable => exact ⟨rfl, fun _ h => by cases h⟩
          | directory =>
            have hlast := hspelled _ (after_mem_trail hw (isDirectoryAt_eq_true.2 hnode))
            cases s with
            | here => exact ⟨rfl, fun _ h => by cases h⟩
            | up => exact ⟨rfl, fun _ h => by cases h⟩
            | name name =>
              have hthere : b.isDirectoryAt (name :: parent) = a.isDirectoryAt (name :: parent) := h.isDirectoryAt hlast
              dsimp only
              rw [hthere]
              refine ⟨rfl, fun m hm => ?_⟩
              split_ifs at hm
              exact Except.ok.inj hm ▸ hlast

end AgreeOff

/-! ## Runs in step -/

/-- **Two runs in step**: they have the same off some places.  No directory is new to the first. -/
structure InStep (places : Set Location) (before after after' : FileSystem) : Prop where
  current : after.current = before.current
  agreeOff : AgreeOff places after after'
  directory : ∀ k, after.isDirectoryAt k = true → before.isDirectoryAt k = true

theorem AgreeOff.inStep (h : AgreeOff places a b) : InStep places a a b := ⟨rfl, h, fun _ h => h⟩

namespace InStep

variable (h : InStep places b a a')

include h

theorem avoids (havoids : b.Avoids places p) : a.Avoids places p := by
  intro k hk
  rw [origin, h.current, ← origin] at hk
  exact havoids k (trail_subset h.directory hk)

theorem put (hl : l ≠ []) (content : Content) (executable : Bool) :
    InStep places b (a.put l (.file content executable)) (a'.put l (.file content executable)) where
  current := h.current
  agreeOff.current := h.agreeOff.current
  agreeOff.node k hk := by rw [node?_put a l k _ hl, node?_put a' l k _ hl, h.agreeOff.node k hk]
  directory k hk := by
    rw [isDirectoryAt_eq_true, node?_put a l k _ hl] at hk
    split at hk
    · cases hk
    · exact h.directory k (isDirectoryAt_eq_true.2 hk)

theorem erase (hl : l ≠ []) : InStep places b (a.erase l) (a'.erase l) where
  current := h.current
  agreeOff.current := h.agreeOff.current
  agreeOff.node k hk := by rw [node?_erase hl, node?_erase hl, h.agreeOff.node k hk]
  directory k hk := by
    rw [isDirectoryAt_eq_true, node?_erase hl] at hk
    split at hk
    · cases hk
    · exact h.directory k (isDirectoryAt_eq_true.2 hk)

theorem write (havoids : b.Avoids places p) (bytes : ByteArray) :
    (∃ fault, a.write p bytes = .error fault ∧ a'.write p bytes = .error fault) ∨
      ∃ t t', a.write p bytes = .ok t ∧ a'.write p bytes = .ok t' ∧ InStep places b t t' := by
  obtain ⟨hlocate, hplace⟩ := h.agreeOff.locateForWriting (h.avoids havoids)
  rw [FileSystem.write, FileSystem.write, hlocate]
  cases hl : a.locateForWriting p with
  | error fault => exact .inl ⟨fault, rfl, rfl⟩
  | ok l =>
    obtain ⟨-, parent, name, -, -, -, -, -, rfl⟩ := locateForWriting_cases hl
    refine .inr ⟨_, _, rfl, rfl, ?_⟩
    rw [h.agreeOff.executableAt (hplace _ hl)]
    exact h.put (List.cons_ne_nil _ _) _ _

end InStep

end SourceSlice.FileSystem
