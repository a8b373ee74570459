import SourceSlice.Proofs.Batch.Answers
import SourceSlice.Proofs.Excerpt
import SourceSlice.Proofs.Selection.Algebra
/-!
# What slicing reads

Slicing looks for three things among the files: its table, the files that rows name, and the sources that the engine's
answers name.  In two trees in which these are found alike it does the same (`run_congr`).  The sources are those of the
answers kept at the end of a run, for every excerpt is of answers that were kept.
-/
namespace SourceSlice

variable {σ α β : Type} {a b : FileSystem}

def BatchInput.rowsIn (files : FileSystem) : BatchInput → List Row
  | .table path => (Table.read files path).toOption.getD []
  | .rows rs => rs
  | .adHoc .. => []

theorem FileSystem.launchFirst_congr {args : List String} {fault : FileFault} {paths : List Path}
    (h : ∀ p ∈ paths, b.find p = a.find p) : b.launchFirst args fault paths = a.launchFirst args fault paths := by
  induction paths generalizing fault with
  | nil => rfl
  | cons p rest ih =>
    have hhere : b.launchAt args p = a.launchAt args p := by rw [launchAt, launchAt, h p (.head _)]
    simp only [launchFirst, hhere, ih fun q hq => h q (.tail _ hq)]

theorem Engine.spawned_congr {searchPath : Option String} {path : Path}
    (h : ∀ p ∈ FileSystem.programPaths searchPath path, b.find p = a.find p) (program : Program σ) :
    Engine.spawned b searchPath path program = Engine.spawned a searchPath path program := by
  funext r s
  have hlaunch : b.launch searchPath path r.args = a.launch searchPath path r.args := by
    rw [FileSystem.launch, FileSystem.launch, FileSystem.launchFirst_congr h]
  rw [Engine.spawned, Engine.spawned, hlaunch]

theorem Entry.excerpt_congr {e : Entry} (h : e.file ≠ "" → b.read ⟨e.file⟩ = a.read ⟨e.file⟩) :
    e.excerpt b = e.excerpt a := by
  unfold Entry.excerpt
  split_ifs with hname
  · rfl
  · rw [FileSystem.readSource, FileSystem.readSource, h hname]

theorem Selection.excerpt_congr {s : Selection} (h : ∀ file ∈ s.files, file ≠ "" → b.read ⟨file⟩ = a.read ⟨file⟩) :
    s.excerpt b = s.excerpt a := by
  rw [excerpt, excerpt, excerptEntries_congr fun e he => Entry.excerpt_congr (h e.file (List.mem_map_of_mem he))]

theorem Row.criterion?_congr {r : Row} (h : b.isFile ⟨r.file⟩ = a.isFile ⟨r.file⟩) :
    r.criterion? b = r.criterion? a := by
  rw [criterion?, criterion?, h]

theorem Table.read_congr {path : Path} (h : b.find path = a.find path) : Table.read b path = Table.read a path := by
  rw [read, read, h]

/-- **The sources that answers name are read alike.** -/
def Session.SourcesAlike (a b : FileSystem) (s : Session σ) : Prop :=
  ∀ kept ∈ s.answers, ∀ file ∈ kept.2.files, file ≠ "" → b.read ⟨file⟩ = a.read ⟨file⟩

theorem Session.SourcesAlike.of_prefix {s t : Session σ} (h : t.SourcesAlike a b) (hlonger : s.answers <+: t.answers) :
    s.SourcesAlike a b := fun kept hkept => h kept (hlonger.subset hkept)

namespace Slicing

/-- **Two works do the same**, as long as the sources that are read come out alike. -/
def SameReading (a b : FileSystem) (work work' : Slicing σ α) : Prop :=
  ∀ s, (work.leaves s).SourcesAlike a b → work' s = work s

theorem SameReading.refl (work : Slicing σ α) : SameReading a b work work := fun _ _ => rfl

theorem SameReading.bind {slicer : Slicer σ} {work work' : Slicing σ α} {next next' : α → Slicing σ β}
    (hwork : SameReading a b work work') (hnext : ∀ x, SameReading a b (next x) (next' x))
    (hasks : ∀ x, slicer.AsksOnly Set.univ (next x)) : SameReading a b (work >>= next) (work' >>= next') := by
  intro s hs
  rw [leaves_bind] at hs
  cases hw : work s with
  | error e t =>
    rw [gives_of_error hw, leaves_of_error hw] at hs
    rw [Work.bind_of_error hw, Work.bind_of_error ((hwork s (by rwa [leaves_of_error hw])).trans hw)]
  | ok x t =>
    rw [gives_of_ok hw, leaves_of_ok hw] at hs
    -- the answers kept by the first part are kept by the rest
    have hfirst : t.SourcesAlike a b := hs.of_prefix (hasks x t).prefixes.2
    rw [Work.bind_of_ok hw, Work.bind_of_ok ((hwork s (by rwa [leaves_of_ok hw])).trans hw), hnext x t hs]

end Slicing

namespace Slicer

open Slicing

variable {slicer : Slicer σ} {c : Criterion} {s t : Session σ}

theorem mem_answers_of_ask {d : Direction} {x : Selection} (h : slicer.ask c d s = .ok x t) :
    ∃ kept ∈ t.answers, kept.2 = x := ⟨_, Association.mem_of_get? (kept?_of_ask_ok h), rfl⟩

theorem mem_files_of_selection {x : Selection} (h : slicer.selection c s = .ok x t) {file : String}
    (hfile : file ∈ x.files) : ∃ kept ∈ t.answers, file ∈ kept.2.files := by
  have hask {d : Direction} (hd : slicer.ask c d s = .ok x t) : ∃ kept ∈ t.answers, file ∈ kept.2.files := by
    obtain ⟨kept, hkept, rfl⟩ := mem_answers_of_ask hd
    exact ⟨kept, hkept, hfile⟩
  unfold selection at h
  cases hmode : slicer.mode with
  | backward => rw [hmode] at h; exact hask h
  | forward => rw [hmode] at h; exact hask h
  | bidirectional =>
    rw [hmode] at h
    dsimp only at h
    cases hback : slicer.ask c .backward s with
    | error e u => rw [Work.bind_of_error hback] at h; cases h
    | ok x₁ u =>
      rw [Work.bind_of_ok hback] at h
      cases hforth : slicer.ask c .forward u with
      | error e v => rw [Work.bind_of_error hforth] at h; cases h
      | ok x₂ v =>
        rw [Work.bind_of_ok hforth] at h
        cases h
        rcases Selection.mem_files_union.1 hfile with hx | hx
        · obtain ⟨kept, hkept, rfl⟩ := mem_answers_of_ask hback
          have hlonger := (prefix_ask slicer c .forward u).2
          rw [leaves_of_ok hforth] at hlonger
          exact ⟨kept, hlonger.subset hkept, hx⟩
        · obtain ⟨kept, hkept, rfl⟩ := mem_answers_of_ask hforth
          exact ⟨kept, hkept, hx⟩

theorem sliceText_congr (slicer : Slicer σ) (c : Criterion) :
    SameReading a b (slicer.sliceText a c) (slicer.sliceText b c) := by
  intro s hs
  unfold sliceText at hs ⊢
  rw [leaves_bind] at hs
  cases hselection : slicer.selection c s with
  | error e t => rw [Work.bind_of_error hselection, Work.bind_of_error hselection]
  | ok x t =>
    rw [gives_of_ok hselection, leaves_of_ok hselection] at hs
    dsimp only at hs
    rw [leaves_ofExcept] at hs
    have hexcerpt : x.excerpt b = x.excerpt a := Selection.excerpt_congr fun file hfile => by
      obtain ⟨kept, hkept, hmem⟩ := mem_files_of_selection hselection hfile
      exact hs kept hkept file hmem
    rw [Work.bind_of_ok hselection, Work.bind_of_ok hselection, hexcerpt]

theorem collect_congr (slicer : Slicer σ) : ∀ {rows : List Row},
    (∀ row ∈ rows, b.isFile ⟨row.file⟩ = a.isFile ⟨row.file⟩) →
      SameReading a b (slicer.collect a rows) (slicer.collect b rows)
  | [], _ => .refl _
  | row :: rest, h => by
    rw [List.forall_mem_cons] at h
    have hrest := collect_congr slicer h.2
    have hasks : slicer.AsksOnly Set.univ (slicer.collect a rest) := asksOnly_collect a rest fun _ _ => Set.mem_univ _
    unfold collect
    rw [Row.criterion?_congr h.1]
    cases row.criterion? a with
    | none => exact hrest
    | some c =>
      refine .bind (sliceText_congr slicer c) (fun text => ?_) fun text => hasks.bind fun _ => asksOnly_pure _ _ _
      exact .bind hrest (fun _ => .refl _) fun _ => asksOnly_pure slicer _ _

theorem runRows_congr (slicer : Slicer σ) {rows : List Row}
    (h : ∀ row ∈ rows, b.isFile ⟨row.file⟩ = a.isFile ⟨row.file⟩) :
    SameReading a b (slicer.runRows a rows) (slicer.runRows b rows) :=
  .bind (collect_congr slicer h) (fun _ => .refl _) fun _ => asksOnly_ofExcept slicer _ _

/-- **Slicing reads its table, the files of its rows and the sources of its answers**, and nothing else. -/
theorem run_congr (slicer : Slicer σ) {input : BatchInput}
    (htable : ∀ path, input = .table path → b.find path = a.find path)
    (hrows : ∀ row ∈ input.rowsIn a, b.isFile ⟨row.file⟩ = a.isFile ⟨row.file⟩) :
    SameReading a b (slicer.run a input) (slicer.run b input) := by
  cases input with
  | rows rows => exact runRows_congr slicer hrows
  | adHoc key entryPoint =>
    unfold run
    dsimp only
    cases Criterion.ofKey key entryPoint with
    | error e => exact .refl _
    | ok c => exact .bind (sliceText_congr slicer c) (fun _ => .refl _) fun _ => asksOnly_pure slicer _ _
  | table path =>
    have hread := Table.read_congr (htable path rfl)
    unfold run
    dsimp only
    rw [hread]
    cases hrowsOf : Table.read a path with
    | error e => exact .refl _
    | ok rows =>
      rw [BatchInput.rowsIn, hrowsOf] at hrows
      exact runRows_congr slicer hrows

end Slicer
end SourceSlice
