import SourceSlice.Proofs.Batch.Answers
import SourceSlice.Proofs.Batch.Rows
import SourceSlice.Proofs.Criterion.Key
/-!
# Who shares an answer

With an engine that always answers, a question is answered from memory when a call was made for its slot.  That is not
the same as a call with its arguments: two spellings of a path share a slot and have two keys (`keyedByText_fails`), and
a `#` in a file or in a function can make one key of two slots.  `keyedByText_iff` says for which criteria it is the same.
-/
namespace SourceSlice

variable {σ : Type}

def Criterion.told (c : Criterion) : String × String × Direction := (c.key, c.entryPoint, c.direction)

def Call.told (call : Call) : String × String × Direction := call.request.criterion.told

/-- **An engine that always succeeds**, with a report that has no fault. -/
def Engine.AlwaysAnswers (engine : Engine σ) : Prop := ∀ r s, ∃ a, (engine r s).1.bind selectionOf = .ok a

theorem Engine.alwaysAnswers_printing {report : Request → String} (h : ∀ r, ∃ a, selectionOf (report r) = .ok a) :
    (printing report).AlwaysAnswers := fun r _ => h r

namespace Slicer

variable {slicer : Slicer σ} {among : Set Criterion} {b c : Criterion} {d : Direction} {s : Session σ} {e : σ}

theorem args_request_eq_iff (slicer : Slicer σ) (b c : Criterion) :
    (slicer.request b).args = (slicer.request c).args ↔ b.told = c.told := by
  have hargs : ∀ x : Criterion, (slicer.request x).args = "-sc" :: x.key :: "-entry" :: x.entryPoint ::
      ((if slicer.options.verify then [] else ["--dont-verify"]) ++ ((if x.direction = .forward then ["--forward"] else [])
        ++ ["--linenum", slicer.artifact.text])) := by
    intro x
    simp only [Request.args, request, List.append_assoc, List.cons_append, List.nil_append, if_true]
    rfl
  rw [hargs, hargs, Criterion.told, Criterion.told]
  simp only [List.cons.injEq, true_and, Prod.mk.injEq, List.append_cancel_left_eq]
  refine and_congr_right fun _ => and_congr_right fun _ => ?_
  cases b.direction <;> cases c.direction <;> simp

def AnsweredFromMemory (slicer : Slicer σ) (c : Criterion) (d : Direction) (s : Session σ) : Prop :=
  ∃ a, slicer.ask c d s = .ok a s

theorem answeredFromMemory_iff : slicer.AnsweredFromMemory c d s ↔ (s.kept? (c.towards d).slot).isSome := by
  constructor
  · rintro ⟨a, h⟩
    rw [kept?_of_ask_ok h]
    rfl
  · intro h
    obtain ⟨a, ha⟩ := Option.isSome_iff_exists.1 h
    exact ⟨a, ask_of_kept ha⟩

theorem Leads.calls_answered (halways : slicer.engine.AlwaysAnswers) (h : slicer.Leads among (.start e) s) :
    ∀ call ∈ s.calls, call.kept?.isSome ∧ ∃ c ∈ among, ∃ d, call.request = slicer.request (c.towards d) := by
  induction h with
  | refl => exact fun _ h => nomatch h
  | @tail u v _ hlast ih =>
    obtain ⟨c, hc, d, rfl⟩ := hlast
    have hnew : (slicer.callFor (c.towards d) u).kept?.isSome := by
      obtain ⟨a, ha⟩ := halways (slicer.request (c.towards d)) u.engine
      have hout : (slicer.callFor (c.towards d) u).outcome = .ok a := ha
      rw [Call.kept?_of_ok hout]
      rfl
    have hboth : ∀ call ∈ u.calls ++ [slicer.callFor (c.towards d) u],
        call.kept?.isSome ∧ ∃ c ∈ among, ∃ d, call.request = slicer.request (c.towards d) := by
      intro call hcall
      rcases List.mem_append.1 hcall with hold | hnext
      · exact ih call hold
      · rw [List.mem_singleton.1 hnext]
        exact ⟨hnew, c, hc, d, rfl⟩
    -- a question answered from memory adds no call; the engine's answer is not needed for the other two cases
    rcases ask_cases slicer c d u with ⟨a, -, h⟩ | ⟨a, -, -, h⟩ | ⟨err, -, -, h⟩
    · rw [Slicing.leaves_of_ok h]; exact ih
    · rw [Slicing.leaves_of_ok h]; exact hboth
    · rw [Slicing.leaves_of_error h]; exact hboth

theorem answeredFromMemory_iff_slot (halways : slicer.engine.AlwaysAnswers) (h : slicer.Leads among (.start e) s) :
    slicer.AnsweredFromMemory c d s ↔ ∃ call ∈ s.calls, call.slot = (c.towards d).slot := by
  have hsettled : s.Settled := h.settled (Session.settled_start e)
  rw [answeredFromMemory_iff, hsettled.kept?_eq, List.findSome?_isSome_iff]
  constructor
  · rintro ⟨call, hcall, hans⟩
    exact ⟨call, hcall, (Call.isSome_answerTo?.1 hans).1⟩
  · rintro ⟨call, hcall, hslot⟩
    exact ⟨call, hcall, Call.isSome_answerTo?.2 ⟨hslot, (h.calls_answered halways call hcall).1⟩⟩

theorem nodup_slots_calls (halways : slicer.engine.AlwaysAnswers) (h : slicer.Leads among (.start e) s) :
    (s.calls.map Call.slot).Nodup := by
  have hsettled : s.Settled := h.settled (Session.settled_start e)
  rw [List.Nodup, List.pairwise_map]
  refine hsettled.once.imp_of_mem fun {call later} hcall _ hne heq => ?_
  exact hne (h.calls_answered halways call hcall).1 heq.symm

/-- **Answers are kept by what the engine is told**: a question about one of the criteria is answered from memory exactly
when a call with the same key, entry point and direction was made, and no list of arguments is given twice. -/
structure KeyedByText (slicer : Slicer σ) (among : Set Criterion) (s : Session σ) : Prop where
  shared : ∀ c ∈ among, ∀ d, slicer.AnsweredFromMemory c d s ↔ ∃ call ∈ s.calls, call.told = (c.towards d).told
  once : (s.calls.map (·.request.args)).Nodup

/-- Criteria among which the engine is told the same exactly where the slot is the same. -/
def ToldBySlot (among : Set Criterion) : Prop :=
  ∀ b ∈ among, ∀ c ∈ among, ∀ d d', (b.towards d).slot = (c.towards d').slot ↔ (b.towards d).told = (c.towards d').told

theorem keyedByText_of_toldBySlot (halways : slicer.engine.AlwaysAnswers) (htold : ToldBySlot among)
    (h : slicer.Leads among (.start e) s) : slicer.KeyedByText among s where
  shared c hc d := by
    rw [answeredFromMemory_iff_slot halways h]
    refine exists_congr fun call => and_congr_right fun hcall => ?_
    obtain ⟨-, b, hb, d', hreq⟩ := h.calls_answered halways call hcall
    rw [Call.slot, Call.told, hreq]
    exact htold b hb c hc d' d
  once := by
    have hslots := nodup_slots_calls halways h
    rw [List.Nodup, List.pairwise_map] at hslots ⊢
    refine hslots.imp_of_mem fun {call later} hcall hlater hne hargs => hne ?_
    obtain ⟨-, b, hb, d, hreq⟩ := h.calls_answered halways call hcall
    obtain ⟨-, c, hc, d', hreq'⟩ := h.calls_answered halways later hlater
    rw [hreq, hreq', args_request_eq_iff] at hargs
    rw [Call.slot, Call.slot, hreq, hreq']
    exact (htold b hb c hc d d').2 hargs

theorem answeredFromMemory_after_one (halways : slicer.engine.AlwaysAnswers) (hb : b ∈ among) (e : σ) (c : Criterion)
    (d d' : Direction) :
    (slicer.AnsweredFromMemory c d' ((slicer.ask b d).leaves (.start e)) ↔ (b.towards d).slot = (c.towards d').slot) ∧
    ((∃ call ∈ ((slicer.ask b d).leaves (.start e)).calls, call.told = (c.towards d').told) ↔
      (b.towards d).told = (c.towards d').told) := by
  have hlead : slicer.Leads among (.start e) ((slicer.ask b d).leaves (.start e)) := asksOnly_ask hb d _
  have hcalls : ((slicer.ask b d).leaves (.start e)).calls = [slicer.callFor (b.towards d) (.start e)] :=
    calls_ask_of_not_kept rfl
  rw [answeredFromMemory_iff_slot halways hlead, hcalls]
  simp only [List.mem_singleton, exists_eq_left]
  exact ⟨Iff.rfl, Iff.rfl⟩

theorem toldBySlot_of_keyedByText (halways : slicer.engine.AlwaysAnswers) (e : σ)
    (h : ∀ s, slicer.Leads among (.start e) s → slicer.KeyedByText among s) : ToldBySlot among := by
  intro b hb c hc d d'
  obtain ⟨hslot, htold⟩ := answeredFromMemory_after_one halways hb e c d d'
  rw [← hslot, ← htold]
  exact (h _ (asksOnly_ask hb d _)).shared c hc d'

theorem toldBySlot_iff_of_unambiguous (hplain : ∀ c ∈ among, c.Unambiguous) :
    ToldBySlot among ↔ ∀ b ∈ among, ∀ c ∈ among, ∀ d, (b.towards d).slot = (c.towards d).slot → b.file = c.file := by
  constructor
  · intro htold b hb c hc d hslot
    have hkey : (b.towards d).key = (c.towards d).key := congrArg Prod.fst ((htold b hb c hc d d).1 hslot)
    exact (Criterion.key_eq_iff_of_slot_eq hslot).1 hkey
  · intro hfile b hb c hc d d'
    constructor
    · intro hslot
      have hdirection : d = d' := congrArg Criterion.Slot.direction hslot
      subst hdirection
      have hkey : (b.towards d).key = (c.towards d).key :=
        (Criterion.key_eq_iff_of_slot_eq hslot).2 (hfile b hb c hc d hslot)
      have hentry : b.entryPoint = c.entryPoint := congrArg Criterion.Slot.entryPoint hslot
      rw [Criterion.told, Criterion.told, hkey]
      exact congrArg (fun x => ((c.towards d).key, x, d)) hentry
    · intro htold
      obtain ⟨hkey, hrest⟩ := Prod.mk.inj htold
      obtain ⟨hentry, hdirection⟩ := Prod.mk.inj hrest
      obtain ⟨hpath, hfunction, hline, hvarname⟩ := Criterion.key_injective (hplain b hb) (hplain c hc) hkey
      change (⟨b.file.components, b.line, b.varname, b.entryPoint, b.function, d⟩ : Criterion.Slot)
        = ⟨c.file.components, c.line, c.varname, c.entryPoint, c.function, d'⟩
      rw [hpath, hline, hvarname, hfunction]
      exact congr (congrArg (fun x => Criterion.Slot.mk _ _ _ x _) hentry) hdirection

/-- **Who shares an answer**, with an engine that always answers.  Questions share it by slot, and there is one call for
a slot.  That is to share it by what the engine is told exactly for criteria told by slot, which are, without a `#` in
files and functions, those that spell each path in one way.  Demands that name such criteria ask about no others. -/
theorem keyedByText_iff (slicer : Slicer σ) (halways : slicer.engine.AlwaysAnswers) (e : σ) (among : Set Criterion) :
    (∀ s, slicer.Leads among (.start e) s →
      (∀ c d, slicer.AnsweredFromMemory c d s ↔ ∃ call ∈ s.calls, call.slot = (c.towards d).slot) ∧
      (s.calls.map Call.slot).Nodup) ∧
    ((∀ s, slicer.Leads among (.start e) s → slicer.KeyedByText among s) ↔ ToldBySlot among) ∧
    ((∀ c ∈ among, c.Unambiguous) → (ToldBySlot among ↔
      ∀ b ∈ among, ∀ c ∈ among, ∀ d, (b.towards d).slot = (c.towards d).slot → b.file = c.file)) ∧
    (∀ demands : List (FileSystem × Demand), (∀ p ∈ demands, ∀ c ∈ p.2.criteria p.1, c ∈ among) →
      slicer.Leads among (.start e) (slicer.serveAll demands (.start e)).2) := by
  refine ⟨fun s hs => ⟨fun c d => answeredFromMemory_iff_slot halways hs, nodup_slots_calls halways hs⟩, ⟨?_, ?_⟩,
    toldBySlot_iff_of_unambiguous, fun demands => leads_serveAll demands _⟩
  · exact toldBySlot_of_keyedByText halways e
  · exact fun htold s hs => keyedByText_of_toldBySlot halways htold hs

/-- Questions about one file, outside of all functions, share an answer exactly when the engine is told the same. -/
theorem keyedByText_iff_one_file :
    let slicer : Slicer Unit := ⟨.printing fun _ => "", ⟨"a.bc"⟩, .bidirectional, ⟨false⟩⟩
    slicer.engine.AlwaysAnswers ∧ ∀ s, slicer.Leads {c | c.file = ⟨"a.c"⟩ ∧ c.function = none} (.start ()) s →
      slicer.KeyedByText {c | c.file = ⟨"a.c"⟩ ∧ c.function = none} s := by
  intro slicer
  have halways : slicer.engine.AlwaysAnswers := Engine.alwaysAnswers_printing fun _ => ⟨∅, rfl⟩
  obtain ⟨-, hiff, hplain, -⟩ := keyedByText_iff slicer halways () {c | c.file = ⟨"a.c"⟩ ∧ c.function = none}
  have hunambiguous : ∀ c ∈ {c : Criterion | c.file = ⟨"a.c"⟩ ∧ c.function = none}, c.Unambiguous := by
    rintro c ⟨hfile, hfunction⟩
    refine ⟨?_, fun f hf => ?_⟩
    · rw [hfile]; decide
    · rw [hfunction] at hf; cases hf
  refine ⟨halways, hiff.2 ((hplain hunambiguous).2 ?_)⟩
  rintro b ⟨hb, -⟩ c ⟨hc, -⟩ d -
  exact hb.trans hc.symm

/-- Two rows for one file, spelled in two ways: the engine would select the first line for the second row, but it is
called for the first row alone, and both get the line it selects there. -/
theorem keyedByText_fails :
    let files : FileSystem := ⟨[(["a.c", "src"], .file (.bytes "x\ny\n".toUTF8) false), (["src"], .directory)], []⟩
    let report (r : Request) := if r.criterion.key = "src/a.c##1#&v" then "src/a.c,1\n" else "src/a.c,2\n"
    let slicer : Slicer Unit := ⟨.printing report, ⟨"prog.bc"⟩, .backward, ⟨false⟩⟩
    let rows : List Row := [⟨"src//a.c", "1", "v", "main", none⟩, ⟨"src/a.c", "1", "v", "main", none⟩]
    slicer.engine.AlwaysAnswers ∧ ∃ s, slicer.runRows files rows (.start ()) = .ok ⟨["y\n", "y\n"], []⟩ s ∧
      s.calls.length = 1 ∧ slicer.Leads Set.univ (.start ()) s ∧ ¬ slicer.KeyedByText Set.univ s := by
  intro files report slicer rows
  let c (file : String) : Criterion := { file := ⟨file⟩, line := ⟨1, by decide⟩, varname := "v", entryPoint := "main" }
  let first : Selection := ⟨[⟨"src/a.c", .ofList [1]⟩]⟩
  let second : Selection := ⟨[⟨"src/a.c", .ofList [2]⟩]⟩
  let s : Session Unit := (slicer.called (c "src//a.c") (.start ())).keeping (c "src//a.c").slot second
  have hreports : selectionOf "src/a.c,1\n" = .ok first ∧ selectionOf "src/a.c,2\n" = .ok second := by
    constructor <;> rfl
  have hslot : (c "src//a.c").slot = (c "src/a.c").slot := by decide
  have hkey : (c "src//a.c").key ≠ (c "src/a.c").key := by decide
  have hkept : s.kept? (c "src/a.c").slot = some second := if_pos hslot
  have hagain : slicer.ask (c "src/a.c") .backward s = .ok second s := ask_of_kept hkept
  have hfirst : slicer.selection (c "src//a.c") (.start ()) = .ok second s := by
    have hother : (slicer.request (c "src//a.c")).criterion.key ≠ "src/a.c##1#&v" := by decide
    have hreport : report (slicer.request (c "src//a.c")) = "src/a.c,2\n" := if_neg hother
    exact ask_of_outcome_ok rfl ((outcome_callFor_printing rfl _ _).trans ((congrArg selectionOf hreport).trans hreports.2))
  have htext : second.excerpt files = .ok "y\n" := by rfl
  have hslices : slicer.Slices files (.start ()) rows ["y\n", "y\n"] s :=
    .cons (by decide) (sliceText_of_selection hfirst htext)
      (.cons (by decide) (sliceText_of_selection hagain htext) (.nil s))
  have hrun : slicer.runRows files rows (.start ()) = .ok ⟨["y\n", "y\n"], []⟩ s := hslices.runRows_eq
  have halways : slicer.engine.AlwaysAnswers := by
    refine Engine.alwaysAnswers_printing fun r => ?_
    by_cases hsame : r.criterion.key = "src/a.c##1#&v"
    · have hreport : report r = "src/a.c,1\n" := if_pos hsame
      exact ⟨first, (congrArg selectionOf hreport).trans hreports.1⟩
    · have hreport : report r = "src/a.c,2\n" := if_neg hsame
      exact ⟨second, (congrArg selectionOf hreport).trans hreports.2⟩
  refine ⟨halways, s, hrun, rfl, ?_, fun h => ?_⟩
  · rw [← Slicing.leaves_of_ok hrun]
    exact asksOnly_runRows files (fun b _ => Set.mem_univ b) _
  · obtain ⟨call, hcall, htold⟩ := (h.shared (c "src/a.c") (Set.mem_univ _) .backward).1 ⟨second, hagain⟩
    rw [List.mem_singleton.1 hcall] at htold
    exact hkey (congrArg Prod.fst htold)

end Slicer
end SourceSlice
