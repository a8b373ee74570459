import SourceSlice.Engine.Process
import SourceSlice.Proofs.Criterion.Key
/-!
# Arguments of the engine

The switches of a request stand between texts that may be spelled like switches, so they are told by their places: four
arguments come before them and one after them (`args_eq`).  Which of them are there says what the request asks for
(`switches_injective`), and the key is taken apart as `Criterion.key_injective` says.
-/
namespace SourceSlice

namespace Criterion

variable {c : Criterion}

/-- The criteria that can be made: new ones, and those put within a function or towards a direction. -/
inductive Built : Criterion → Prop
  | new (file : Path) (line : LineNumber) (varname entryPoint : String) : Built { file, line, varname, entryPoint }
  | within {c : Criterion} (function : Option String) : Built c → Built (c.within function)
  | towards {c : Criterion} (direction : Direction) : Built c → Built (c.towards direction)

theorem Built.function_ne (h : c.Built) : ∀ f ∈ c.function, f ≠ "" := by
  induction h with
  | new => exact nofun
  | within function _ _ =>
    intro f hf
    have hne := (Option.filter_eq_some_iff.1 hf).2
    simpa using hne
  | towards direction _ ih => exact ih

/-- A criterion that can be made, without a `#` in its file and its function. -/
structure Plain (c : Criterion) : Prop where
  built : c.Built
  file : '#' ∉ c.file.text.toList
  function : ∀ f ∈ c.function, '#' ∉ f.toList

theorem Plain.unambiguous (h : c.Plain) : c.Unambiguous :=
  ⟨h.file, fun f hf => ⟨h.built.function_ne f hf, h.function f hf⟩⟩

end Criterion

namespace Request

variable {q r : Request} {s : String}

def switches (r : Request) : List String :=
  (if r.options.verify then [] else ["--dont-verify"])
    ++ (if r.criterion.direction = .forward then ["--forward"] else [])
    ++ (if r.lineNumbers then ["--linenum"] else [])

theorem args_eq (r : Request) :
    r.args = "-sc" :: r.criterion.key :: "-entry" :: r.criterion.entryPoint :: (r.switches ++ [r.artifact.text]) := by
  simp [args, switches]

theorem mem_switches : s ∈ r.switches ↔ s = "--dont-verify" ∧ r.options.verify = false ∨
    s = "--forward" ∧ r.criterion.direction = .forward ∨ s = "--linenum" ∧ r.lineNumbers = true := by
  simp only [switches, List.mem_append, or_assoc]
  refine or_congr ?_ (or_congr ?_ ?_)
  · cases r.options.verify <;> simp
  · cases r.criterion.direction <;> simp
  · cases r.lineNumbers <;> simp

theorem switches_injective (h : q.switches = r.switches) :
    q.options = r.options ∧ q.criterion.direction = r.criterion.direction ∧ q.lineNumbers = r.lineNumbers := by
  have hmem (s : String) : s ∈ q.switches ↔ s ∈ r.switches := by rw [h]
  have hverify : q.options.verify = false ↔ r.options.verify = false := by
    simpa [mem_switches] using hmem "--dont-verify"
  have hforward : q.criterion.direction = .forward ↔ r.criterion.direction = .forward := by
    simpa [mem_switches] using hmem "--forward"
  have hnumbers : q.lineNumbers = true ↔ r.lineNumbers = true := by
    simpa [mem_switches] using hmem "--linenum"
  refine ⟨?_, ?_, Bool.eq_iff_iff.2 hnumbers⟩
  · cases hq : q.options; cases hr : r.options
    rw [hq, hr] at hverify
    simpa using hverify
  · cases hq : q.criterion.direction <;> cases hr : r.criterion.direction <;> simp_all

theorem eq_of_args_eq (hq : q.criterion.Plain) (hr : r.criterion.Plain) (h : q.args = r.args) : q = r := by
  rw [args_eq, args_eq] at h
  simp only [List.cons.injEq, true_and] at h
  obtain ⟨hkey, hentry, hrest⟩ := h
  obtain ⟨hswitches, hartifact⟩ := List.append_inj' hrest rfl
  obtain ⟨hfile, hfunction, hline, hvarname⟩ := Criterion.key_injective hq.unambiguous hr.unambiguous hkey
  obtain ⟨hoptions, hdirection, hnumbers⟩ := switches_injective hswitches
  obtain ⟨⟨file, line, varname, entryPoint, function, direction⟩, ⟨artifact⟩, options, lineNumbers⟩ := q
  obtain ⟨⟨file', line', varname', entryPoint', function', direction'⟩, ⟨artifact'⟩, options', lineNumbers'⟩ := r
  simp_all

/-- **The arguments tell the request**: two requests for plain criteria have the same arguments only when they are the
same in every part, whatever texts stand for the variable, the entry point and the artifact.  Of any request the key
comes second, the entry point fourth and the artifact last. -/
theorem args_identify :
    (∀ q r : Request, q.criterion.Plain → r.criterion.Plain → (q.args = r.args ↔ q = r)) ∧
    ∀ r : Request, r.args[1]? = some r.criterion.key ∧ r.args[3]? = some r.criterion.entryPoint ∧
      r.args.getLast? = some r.artifact.text := by
  refine ⟨fun q r hq hr => ⟨eq_of_args_eq hq hr, fun h => h ▸ rfl⟩, fun r => ?_⟩
  rw [args_eq]
  refine ⟨rfl, rfl, ?_⟩
  simp [List.getLast?_cons]

/-- The same arguments in another order: what is a switch in one request is the artifact of the other. -/
theorem args_identify_swapped :
    let made : Criterion :=
      { file := ⟨"a.c"⟩, line := ⟨7, by decide⟩, varname := "-entry##8#&v", entryPoint := "--linenum" }
    let c := (made.within (some "f")).within (some "")
    let q : Request := ⟨c, ⟨"--forward"⟩, ⟨true⟩, true⟩
    let r : Request := ⟨c.towards .forward, ⟨"--linenum"⟩, ⟨true⟩, false⟩
    q.criterion.Plain ∧ r.criterion.Plain ∧ q.args.Perm r.args ∧ q.args ≠ r.args ∧
      q.args[3]? = some "--linenum" ∧ q.args.getLast? = some "--forward" := by
  intro made c q r
  have hbuilt : c.Built := .within _ (.within _ (.new _ _ _ _))
  have hq : q.criterion.Plain := ⟨hbuilt, by decide, nofun⟩
  have hr : r.criterion.Plain := ⟨.towards _ hbuilt, by decide, nofun⟩
  obtain ⟨hiff, hplaces⟩ := args_identify
  have hne : q ≠ r := fun h => absurd (congrArg Request.lineNumbers h) (by decide)
  exact ⟨hq, hr, by decide, fun h => hne ((hiff q r hq hr).1 h), (hplaces q).2.1, (hplaces q).2.2⟩

end Request
end SourceSlice
