import SourceSlice.Proofs.Batch.Recall
/-!
# The answers kept

Which answers a slicer keeps, whatever its engine does: for each question the first that described a selection
(`keepsFirst_of_leads`).  The answers kept are the record of calls read once more, `Session.Settled`, and every question
keeps it so.  Demands of every kind are served from them, up to the first question that has none (`heeds_serve`).
-/
namespace SourceSlice

open Criterion (Slot)

variable {σ : Type}

namespace Call

def kept? (call : Call) : Option (Slot × Selection) :=
  match call.outcome with
  | .ok a => some (call.slot, a)
  | .error _ => none

/-- The selection that a call gives to a question: there is none if it was made for another one, if the engine failed
or if its report was faulty. -/
def answerTo? (slot : Slot) (call : Call) : Option Selection :=
  if call.slot = slot then call.outcome.toOption else none

variable {call : Call} {slot : Slot} {a : Selection} {e : SliceError}

theorem kept?_of_ok (h : call.outcome = .ok a) : call.kept? = some (call.slot, a) := by rw [kept?, h]

theorem kept?_of_error (h : call.outcome = .error e) : call.kept? = none := by rw [kept?, h]

theorem fst_of_kept? {entry : Slot × Selection} (h : call.kept? = some entry) : entry.1 = call.slot := by
  rw [kept?] at h
  split at h
  · exact congrArg Prod.fst (Option.some.inj h).symm
  · cases h

theorem isSome_answerTo? : (call.answerTo? slot).isSome ↔ call.slot = slot ∧ call.kept?.isSome := by
  rw [answerTo?, kept?]
  by_cases h : call.slot = slot
  · cases call.outcome <;> simp [h, Except.toOption]
  · simp [h]

end Call

theorem get?_filterMap_kept? (slot : Slot) : ∀ calls : List Call,
    Association.get? slot (calls.filterMap Call.kept?) = calls.findSome? (Call.answerTo? slot)
  | [] => rfl
  | call :: rest => by
    have ih := get?_filterMap_kept? slot rest
    rw [List.findSome?_cons, Call.answerTo?]
    cases ho : call.outcome with
    | ok a =>
      rw [List.filterMap_cons_some (Call.kept?_of_ok ho), Association.get?]
      by_cases h : call.slot = slot
      · rw [if_pos h, if_pos h]; rfl
      · rw [if_neg h, if_neg h]; exact ih
    | error e =>
      have hnone : (if call.slot = slot then (Except.error e : Except SliceError Selection).toOption else none) = none := by
        split <;> rfl
      rw [List.filterMap_cons_none (Call.kept?_of_error ho), ih, hnone]

/-- **What a session's answers have to do with its calls**: they are what the calls left to be kept, and after a call
that left something no other was made for the same question. -/
structure Session.Settled (s : Session σ) : Prop where
  answers : s.answers = s.calls.filterMap Call.kept?
  once : s.calls.Pairwise fun call later => call.kept?.isSome → later.slot ≠ call.slot

namespace Session.Settled

variable {s : Session σ}

theorem kept?_eq (h : s.Settled) (slot : Slot) : s.kept? slot = s.calls.findSome? (Call.answerTo? slot) := by
  rw [kept?, h.answers, get?_filterMap_kept?]

theorem nodup_slots (h : s.Settled) : (s.answers.map Prod.fst).Nodup := by
  rw [h.answers, List.Nodup, List.pairwise_map, List.pairwise_filterMap]
  refine h.once.imp fun {call later} hne x hx y hy heq => ?_
  rw [Call.fst_of_kept? hx, Call.fst_of_kept? hy] at heq
  exact hne (by rw [hx]; rfl) heq.symm

theorem ne_of_kept?_eq_none (h : s.Settled) {slot : Slot} (hk : s.kept? slot = none) :
    ∀ call ∈ s.calls, call.kept?.isSome → slot ≠ call.slot := by
  rw [h.kept?_eq, List.findSome?_eq_none_iff] at hk
  intro call hcall hsome heq
  have hans : (call.answerTo? slot).isSome := Call.isSome_answerTo?.2 ⟨heq.symm, hsome⟩
  rw [hk call hcall] at hans
  cases hans

theorem ne_of_kept?_eq_some (h : s.Settled) {before later : List Call} {slot : Slot} {a : Selection}
    (hcalls : s.calls = before ++ later) (ha : before.findSome? (Call.answerTo? slot) = some a) :
    ∀ call ∈ later, call.slot ≠ slot := by
  obtain ⟨call, hcall, hans⟩ := List.exists_of_findSome?_eq_some ha
  obtain ⟨hslot, hsome⟩ := Call.isSome_answerTo?.1 (by rw [hans]; rfl : (call.answerTo? slot).isSome)
  have honce := h.once
  rw [hcalls, List.pairwise_append] at honce
  intro next hnext heq
  exact honce.2.2 call hcall next hnext hsome (heq.trans hslot.symm)

end Session.Settled

theorem Session.settled_start (e : σ) : (Session.start e).Settled := ⟨rfl, .nil⟩

namespace Slicer

variable {slicer : Slicer σ} {among : Set Criterion} {c : Criterion} {d : Direction} {a : Selection} {e : SliceError}
  {s t : Session σ}

theorem once_called (hs : s.Settled) (hk : s.kept? c.slot = none) :
    (slicer.called c s).calls.Pairwise fun call later => call.kept?.isSome → later.slot ≠ call.slot := by
  change (s.calls ++ [slicer.callFor c s]).Pairwise _
  refine List.pairwise_append.2 ⟨hs.once, List.pairwise_singleton _ _, fun call hcall later hlater => ?_⟩
  rw [List.mem_singleton.1 hlater]
  exact hs.ne_of_kept?_eq_none hk call hcall

theorem settled_called (hs : s.Settled) (hk : s.kept? c.slot = none) (ho : (slicer.callFor c s).outcome = .error e) :
    (slicer.called c s).Settled where
  answers := by
    change s.answers = (s.calls ++ [slicer.callFor c s]).filterMap Call.kept?
    rw [List.filterMap_append, List.filterMap_cons_none (Call.kept?_of_error ho), ← hs.answers, List.filterMap_nil,
      List.append_nil]
  once := once_called hs hk

theorem settled_keeping (hs : s.Settled) (hk : s.kept? c.slot = none) (ho : (slicer.callFor c s).outcome = .ok a) :
    ((slicer.called c s).keeping c.slot a).Settled where
  answers := by
    change s.answers ++ [(c.slot, a)] = (s.calls ++ [slicer.callFor c s]).filterMap Call.kept?
    rw [List.filterMap_append, List.filterMap_cons_some (Call.kept?_of_ok ho), ← hs.answers, List.filterMap_nil,
      slot_callFor]
  once := once_called hs hk

theorem settled_ask (hs : s.Settled) (c : Criterion) (d : Direction) : ((slicer.ask c d).leaves s).Settled := by
  rcases ask_cases slicer c d s with ⟨a, -, h⟩ | ⟨a, hk, ho, h⟩ | ⟨e, hk, ho, h⟩
  · rw [Slicing.leaves_of_ok h]; exact hs
  · rw [Slicing.leaves_of_ok h]; exact settled_keeping hs hk ho
  · rw [Slicing.leaves_of_error h]; exact settled_called hs hk ho

theorem Leads.settled (h : slicer.Leads among s t) (hs : s.Settled) : t.Settled := by
  induction h with
  | refl => exact hs
  | tail _ hlast ih =>
    obtain ⟨c, -, d, rfl⟩ := hlast
    exact settled_ask ih c d

theorem prefix_ask (slicer : Slicer σ) (c : Criterion) (d : Direction) (s : Session σ) :
    s.calls <+: ((slicer.ask c d).leaves s).calls ∧ s.answers <+: ((slicer.ask c d).leaves s).answers := by
  rcases ask_cases slicer c d s with ⟨a, -, h⟩ | ⟨a, -, -, h⟩ | ⟨e, -, -, h⟩
  · rw [Slicing.leaves_of_ok h]
    exact ⟨List.prefix_refl _, List.prefix_refl _⟩
  · rw [Slicing.leaves_of_ok h]
    exact ⟨List.prefix_append _ _, List.prefix_append _ _⟩
  · rw [Slicing.leaves_of_error h]
    exact ⟨List.prefix_append _ _, List.prefix_refl _⟩

theorem Leads.prefixes (h : slicer.Leads among s t) : s.calls <+: t.calls ∧ s.answers <+: t.answers := by
  induction h with
  | refl => exact ⟨List.prefix_refl _, List.prefix_refl _⟩
  | tail _ hlast ih =>
    obtain ⟨c, -, d, rfl⟩ := hlast
    obtain ⟨hcalls, hanswers⟩ := prefix_ask slicer c d _
    exact ⟨ih.1.trans hcalls, ih.2.trans hanswers⟩

theorem Leads.kept? (h : slicer.Leads among s t) {slot : Slot} (ha : s.kept? slot = some a) :
    t.kept? slot = some a := by
  obtain ⟨later, hlater⟩ := h.prefixes.2
  rw [Session.kept?] at ha
  rw [Session.kept?, ← hlater, Association.get?_append, ha, Option.some_or]

theorem kept?_of_ask_ok (h : slicer.ask c d s = .ok a t) : t.kept? (c.towards d).slot = some a := by
  rcases ask_cases slicer c d s with ⟨b, hk, hb⟩ | ⟨b, hk, -, hb⟩ | ⟨e, -, -, hb⟩
  · rw [hb] at h; cases h; exact hk
  · rw [hb] at h
    cases h
    rw [Session.kept?_keeping, kept?_called, hk, Option.none_or, if_pos rfl]
  · rw [hb] at h; cases h

theorem ask_eq_error (h : slicer.ask c d s = .error e t) :
    s.kept? (c.towards d).slot = none ∧ t = slicer.called (c.towards d) s := by
  rcases ask_cases slicer c d s with ⟨b, hk, hb⟩ | ⟨b, hk, -, hb⟩ | ⟨e', hk, -, hb⟩
  · rw [hb] at h; cases h
  · rw [hb] at h; cases h
  · rw [hb] at h; cases h; exact ⟨hk, rfl⟩

theorem calls_ask_of_not_kept (hk : s.kept? (c.towards d).slot = none) :
    ((slicer.ask c d).leaves s).calls = s.calls ++ [slicer.callFor (c.towards d) s] := by
  rcases ask_cases slicer c d s with ⟨a, ha, -⟩ | ⟨a, -, -, h⟩ | ⟨e, -, -, h⟩
  · rw [hk] at ha; cases ha
  · rw [Slicing.leaves_of_ok h]; rfl
  · rw [Slicing.leaves_of_error h]; rfl

/-- The second half of a bidirectional request fails: the first half is kept, and the same request again calls the engine
for the second half alone. -/
theorem selection_of_forward_error {u : Session σ} (hmode : slicer.mode = .bidirectional)
    (hback : slicer.ask c .backward s = .ok a t) (hforth : slicer.ask c .forward t = .error e u) :
    slicer.selection c s = .error e u ∧ u.kept? (c.towards .backward).slot = some a ∧
      ((slicer.selection c).leaves u).calls = u.calls ++ [slicer.callFor (c.towards .forward) u] := by
  -- the failed call has kept nothing, so the second request finds the first half as it was
  obtain ⟨hnone, rfl⟩ := ask_eq_error hforth
  have hkept : (slicer.called (c.towards .forward) t).kept? (c.towards .backward).slot = some a := by
    rw [kept?_called]; exact kept?_of_ask_ok hback
  have hnone' : (slicer.called (c.towards .forward) t).kept? (c.towards .forward).slot = none := by
    rw [kept?_called]; exact hnone
  have hselection : slicer.selection c = do
      let backward ← slicer.ask c .backward
      let forward ← slicer.ask c .forward
      return backward.union forward := by rw [selection, hmode]
  refine ⟨?_, hkept, ?_⟩
  · rw [hselection, Work.bind_of_ok hback]
    exact Work.bind_of_error hforth
  · have hagain : slicer.ask c .backward (slicer.called (c.towards .forward) t) = .ok a _ := ask_of_kept hkept
    rw [hselection, Slicing.leaves_bind, Slicing.gives_of_ok hagain, Slicing.leaves_of_ok hagain]
    change ((slicer.ask c .forward >>= fun forward => pure (a.union forward)).leaves _).calls = _
    rw [Slicing.leaves_bind, ← calls_ask_of_not_kept hnone']
    split <;> rfl

/-- **Work comes to a question that has no answer.** -/
structure Unanswered {α : Type} (slicer : Slicer σ) (work : Slicing σ α) (c : Criterion) (s : Session σ) : Prop where
  not_kept : s.kept? c.slot = none
  calls : s.calls ++ [slicer.callFor c s] <+: (work.leaves s).calls
  /-- With an answer it goes on as if that had been kept before. -/
  goes_on : ∀ a, (slicer.callFor c s).outcome = .ok a → work s = work ((slicer.called c s).keeping c.slot a)
  /-- Without one it fails and keeps nothing, and the same work again makes the same call. -/
  fails : ∀ e, (slicer.callFor c s).outcome = .error e → work s = .error e (slicer.called c s) ∧
    (slicer.called c s).answers = s.answers ∧
    (slicer.called c s).calls ++ [slicer.callFor c (slicer.called c s)] <+: (work.leaves (slicer.called c s)).calls

/-- **What a slicer keeps**, in a session of its work. -/
structure KeepsFirst (slicer : Slicer σ) (s : Session σ) : Prop where
  /-- The answer kept for a question is the selection of the first call for it that had one. -/
  first : ∀ slot, s.kept? slot = s.calls.findSome? (Call.answerTo? slot)
  /-- There is one entry for a question. -/
  unique : (s.answers.map Prod.fst).Nodup
  /-- Entries are neither changed nor removed. -/
  stays : ∀ t, slicer.Leads Set.univ s t → s.answers <+: t.answers
  /-- Once a question has an answer, no call is made for it and it is always answered so. -/
  answered : ∀ t, slicer.Leads Set.univ s t → ∀ c d a, s.kept? (c.towards d).slot = some a →
    slicer.ask c d t = .ok a t ∧ ∃ later, t.calls = s.calls ++ later ∧ ∀ call ∈ later, call.slot ≠ (c.towards d).slot
  /-- A question without an answer is called for.  Only an answer is kept: after a failure the answers are as before, and
  the next request calls again. -/
  asked : ∀ c d, s.kept? (c.towards d).slot = none →
    ((slicer.ask c d).leaves s).calls = s.calls ++ [slicer.callFor (c.towards d) s] ∧
    (∀ a, (slicer.callFor (c.towards d) s).outcome = .ok a → ∃ t, slicer.ask c d s = .ok a t ∧
      t.answers = s.answers ++ [((c.towards d).slot, a)]) ∧
    (∀ e, (slicer.callFor (c.towards d) s).outcome = .error e → ∃ t, slicer.ask c d s = .error e t ∧
      t.answers = s.answers ∧ ((slicer.ask c d).leaves t).calls = t.calls ++ [slicer.callFor (c.towards d) t])
  /-- A demand whose questions all have answers is served from these, then and ever after, and makes no call. -/
  served : ∀ t, slicer.Leads Set.univ s t → ∀ files demand r, (Memory.serve s.kept? slicer.mode files demand).run = .ok r →
    slicer.serve files demand t = Slicing.ofExcept r t
  /-- Any other demand calls for the first of its questions that has no answer. -/
  called : ∀ files demand c, (Memory.serve s.kept? slicer.mode files demand).run = .error c →
    slicer.Unanswered (slicer.serve files demand) c s
  /-- When the second half of a bidirectional request fails, the first is kept, and the same request again makes only the
  second call. -/
  halfway : slicer.mode = .bidirectional → ∀ c a e t u, slicer.ask c .backward s = .ok a t →
    slicer.ask c .forward t = .error e u → slicer.selection c s = .error e u ∧
      u.kept? (c.towards .backward).slot = some a ∧
      ((slicer.selection c).leaves u).calls = u.calls ++ [slicer.callFor (c.towards .forward) u]

theorem leads_serve (files : FileSystem) (demand : Demand) (s : Session σ) :
    slicer.Leads Set.univ s ((slicer.serve files demand).leaves s) :=
  asksOnly_serve files demand (fun _ _ => Set.mem_univ _) s

theorem prefix_serve {files : FileSystem} {demand : Demand} {c : Criterion}
    (h : (Memory.serve s.kept? slicer.mode files demand).run = .error c) :
    s.calls ++ [slicer.callFor c s] <+: ((slicer.serve files demand).leaves s).calls := by
  obtain ⟨-, hcalls⟩ := (heeds_serve files demand).called s c h
  unfold CallsFor at hcalls
  cases ho : (slicer.callFor c s).outcome with
  | error e =>
    rw [ho] at hcalls
    rw [Slicing.leaves_of_error hcalls]
    exact List.prefix_rfl
  | ok a =>
    rw [ho] at hcalls
    have hleaves : (slicer.serve files demand).leaves s
        = (slicer.serve files demand).leaves ((slicer.called c s).keeping c.slot a) := by
      rw [Slicing.leaves, hcalls, ← Slicing.leaves]
    rw [hleaves]
    exact (leads_serve files demand ((slicer.called c s).keeping c.slot a)).prefixes.1

theorem unanswered_serve {files : FileSystem} {demand : Demand} {c : Criterion}
    (h : (Memory.serve s.kept? slicer.mode files demand).run = .error c) :
    slicer.Unanswered (slicer.serve files demand) c s := by
  obtain ⟨hnone, hcalls⟩ := (heeds_serve files demand).called s c h
  refine ⟨hnone, prefix_serve h, fun a ho => ?_, fun e ho => ⟨?_, rfl, ?_⟩⟩
  · rwa [CallsFor, ho] at hcalls
  · rwa [CallsFor, ho] at hcalls
  · -- nothing was kept, so the demand comes to this question once more
    exact prefix_serve (s := slicer.called c s) h

theorem keepsFirst_of_settled (hs : s.Settled) : slicer.KeepsFirst s where
  first := hs.kept?_eq
  unique := hs.nodup_slots
  stays t ht := ht.prefixes.2
  answered t ht c d a ha := by
    obtain ⟨later, hlater⟩ := ht.prefixes.1
    refine ⟨ask_of_kept (ht.kept? ha), later, hlater.symm, ?_⟩
    rw [hs.kept?_eq] at ha
    exact (ht.settled hs).ne_of_kept?_eq_some hlater.symm ha
  asked c d hk := by
    refine ⟨calls_ask_of_not_kept hk, fun a ho => ⟨_, ask_of_outcome_ok hk ho, rfl⟩, fun e ho => ?_⟩
    have hk' : (slicer.called (c.towards d) s).kept? (c.towards d).slot = none := by rw [kept?_called]; exact hk
    exact ⟨slicer.called (c.towards d) s, ask_of_outcome_error hk ho, rfl, calls_ask_of_not_kept hk'⟩
  served t ht files demand r h := (heeds_serve files demand).served t s.kept? r (fun _ _ => ht.kept?) h
  called files demand c := unanswered_serve
  halfway hmode c a e t u := selection_of_forward_error hmode

/-- **A slicer keeps the first answer to each question**, whatever its engine does.  In every session that questions
lead to, also in the middle of a demand, what is kept is as `KeepsFirst` says, and serving any demands leads to no other
sessions. -/
theorem keepsFirst_of_leads (slicer : Slicer σ) (e : σ) (s : Session σ) (hs : slicer.Leads Set.univ (.start e) s) :
    (∀ demands, slicer.Leads Set.univ s (slicer.serveAll demands s).2) ∧ slicer.KeepsFirst s := by
  have hsettled : s.Settled := hs.settled (Session.settled_start e)
  exact ⟨fun demands => leads_serveAll demands s fun _ _ _ _ => Set.mem_univ _, keepsFirst_of_settled hsettled⟩

/-- The engine fails at its second call and at no other: after the first request the backward answer is kept, and the
second request adds one call to the two of the first. -/
theorem keepsFirst_of_leads_second_call_fails :
    let engine : Engine Nat := fun _ n => if n = 1 then (.error (.engineFailed "" (.exited 1) ""), 2) else (.ok "", n + 1)
    let slicer : Slicer Nat := ⟨engine, ⟨"a.bc"⟩, .bidirectional, ⟨false⟩⟩
    let c : Criterion := ⟨⟨"a.c"⟩, ⟨7, by decide⟩, "v", "main", none, .forward⟩
    let s := (slicer.selection c).leaves (.start 0)
    slicer.Leads Set.univ (.start 0) s ∧ s.kept? (c.towards .backward).slot = some ∅ ∧
      s.calls.length = 2 ∧ ((slicer.selection c).leaves s).calls.length = 3 := by
  intro engine slicer c s
  let t : Session Nat := (slicer.called (c.towards .backward) (.start 0)).keeping (c.towards .backward).slot ∅
  have hback : slicer.ask c .backward (.start 0) = .ok ∅ t := rfl
  have hne : (c.towards .backward).slot ≠ (c.towards .forward).slot := fun h => by
    have hdirection : Direction.backward = .forward := congrArg Criterion.Slot.direction h
    cases hdirection
  have hnone : t.kept? (c.towards .forward).slot = none := by
    rw [Session.kept?_keeping, if_neg hne]
    rfl
  have hforth : slicer.ask c .forward t = .error (.engineFailed "" (.exited 1) "") (slicer.called (c.towards .forward) t) :=
    ask_of_outcome_error hnone rfl
  obtain ⟨-, hstart⟩ := keepsFirst_of_leads slicer 0 (.start 0) .refl
  obtain ⟨hfails, hkept, hcalls⟩ := hstart.halfway rfl c ∅ _ t _ hback hforth
  have hs : s = slicer.called (c.towards .forward) t := Slicing.leaves_of_error hfails
  rw [hs, hcalls]
  exact ⟨hs ▸ asksOnly_selection (Set.mem_univ c) _, hkept, rfl, rfl⟩

end Slicer
end SourceSlice
