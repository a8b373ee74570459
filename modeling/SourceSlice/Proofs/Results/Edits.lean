import Mathlib.Data.List.Nodup
import Mathlib.Logic.Relation
import SourceSlice.Proofs.Results.Opening
import SourceSlice.Proofs.Results.Ledger
import SourceSlice.Results.Edit
/-!
# Databases that others write to

Whoever changes a results database, its tables go together (`Database.Sound`): each change keeps that (`Edited.sound`),
and so do any number of them (`sound_of_edits`).  A sound database takes every run that it has an id for
(`Sound.insertRun_iff`), and gives its output back (`Sound.loadOutput_insertRun`).

A slice is known by its run and its position, where a number counts for what it is and not for how it is kept
(`EntryRow.slot`).  No slot is taken twice, so a change to one row is checked against the others by their slots.
-/
namespace SourceSlice

theorem Binary64.unitsOf_inj {m n : Int} : unitsOf m = unitsOf n ↔ m = n := by
  have hone : (Nat.shiftLeft 1 unitBits : Int) ≠ 0 := by decide +kernel
  exact ⟨Int.eq_of_mul_eq_mul_right hone, congrArg unitsOf⟩

/-- What a cell holds: a number in the units of `Binary64`, or a text. -/
def Cell.value : Cell → Int ⊕ String
  | number n => .inl (Binary64.unitsOf n.toInt)
  | real x => .inl x.units
  | text s => .inr s

theorem Cell.same_iff {a b : Cell} : a.same b = true ↔ a.value = b.value := by
  cases a <;> cases b <;> simp [same, value, units?, Binary64.unitsOf_inj, Int64.toInt_inj]

def EntryRow.slot (e : EntryRow) : Int64 × (Int ⊕ String) := (e.run, e.position.value)

namespace Database

variable {d new : Database} {id : Int64} {run : NewRun} {output : BatchOutput}

theorem isEntry_iff {position : Cell} {e : EntryRow} : isEntry id position e = true ↔ e.slot = (id, position.value) := by
  rw [isEntry, Bool.and_eq_true, Cell.same_iff, decide_eq_true_iff, EntryRow.slot, Prod.mk.injEq]

/-- **The tables go together** when each slice has its run, and neither ids nor slots are taken twice. -/
theorem sound_iff : d.Sound ↔ (∀ e ∈ d.entryRows, ∃ r ∈ d.runRows, r.id = e.run) ∧
    (d.entryRows.map EntryRow.slot).Nodup ∧ (d.runRows.map (·.id)).Nodup := by
  have hslots : (d.entryRows.map EntryRow.slot).Nodup ↔
      d.entryRows.Pairwise fun a b => a.run = b.run → a.position.same b.position = false := by
    rw [List.Nodup, List.pairwise_map]
    have hslot (a b : EntryRow) : a.slot ≠ b.slot ↔ (a.run = b.run → a.position.same b.position = false) := by
      rw [← Bool.not_eq_true, Cell.same_iff, ne_eq, EntryRow.slot, EntryRow.slot, Prod.mk.injEq, not_and]
    simp only [hslot]
  rw [hslots]
  exact ⟨fun h => ⟨h.run_mem, h.distinct, h.ids_distinct⟩, fun h => ⟨h.1, h.2.1, h.2.2⟩⟩

theorem Sound.congr (h : d.Sound) (hruns : new.runRows = d.runRows) (hentries : new.entryRows = d.entryRows) :
    new.Sound := by
  rw [sound_iff] at h ⊢
  rwa [hruns, hentries]

/-! ## One row in another's place -/

section Replace

variable {α β : Type} {p : α → Bool} {a b x : α} {l : List α}

theorem replaceFirst_append : ∀ {before after : List α}, (∀ y ∈ before, p y = false) → p a = true →
    replaceFirst p b (before ++ a :: after) = before ++ b :: after
  | [], _, _, ha => if_pos ha
  | y :: before, after, hbefore, ha => by
    have hy : p y = false := hbefore y List.mem_cons_self
    rw [List.cons_append, replaceFirst, hy, replaceFirst_append (fun z hz => hbefore z (List.mem_cons_of_mem y hz)) ha]
    rfl

theorem exists_replaceFirst (hfind : l.find? p = some a) : ∃ before after, l = before ++ a :: after ∧
    ∀ b, replaceFirst p b l = before ++ b :: after := by
  obtain ⟨ha, before, after, rfl, hbefore⟩ := List.find?_eq_some_iff_append.1 hfind
  exact ⟨before, after, rfl, fun b => replaceFirst_append (fun y hy => by simpa using hbefore y hy) ha⟩

theorem mem_replaceFirst_self (hfind : l.find? p = some a) : b ∈ replaceFirst p b l := by
  obtain ⟨before, after, -, hreplace⟩ := exists_replaceFirst hfind
  rw [hreplace]
  exact List.mem_append_right _ List.mem_cons_self

theorem mem_replaceFirst_of_ne (hfind : l.find? p = some a) (hx : x ∈ l) (hne : x ≠ a) : x ∈ replaceFirst p b l := by
  obtain ⟨before, after, rfl, hreplace⟩ := exists_replaceFirst hfind
  rw [hreplace]
  rcases List.mem_append.1 hx with hx | hx
  · exact List.mem_append_left _ hx
  · exact List.mem_append_right _ (List.mem_cons_of_mem _ ((List.mem_cons.1 hx).resolve_left hne))

theorem of_mem_replaceFirst (hfind : l.find? p = some a) (hx : x ∈ replaceFirst p b l) : x = b ∨ x ∈ l := by
  obtain ⟨before, after, rfl, hreplace⟩ := exists_replaceFirst hfind
  rw [hreplace] at hx
  rcases List.mem_append.1 hx with hx | hx
  · exact .inr (List.mem_append_left _ hx)
  · exact (List.mem_cons.1 hx).imp_right fun hx => List.mem_append_right _ (List.mem_cons_of_mem _ hx)

/-- **No key is taken twice after a row was replaced**, if the new row takes none of another row. -/
theorem nodup_replaceFirst {f : α → β} (hfind : l.find? p = some a) (hnodup : (l.map f).Nodup)
    (hfree : ∀ x ∈ l, f x ≠ f a → f x ≠ f b) : ((replaceFirst p b l).map f).Nodup := by
  obtain ⟨before, after, rfl, hreplace⟩ := exists_replaceFirst hfind
  rw [hreplace]
  rw [List.map_append, List.map_cons, List.nodup_middle, ← List.map_append, List.nodup_cons] at hnodup ⊢
  refine ⟨fun hmem => ?_, hnodup.2⟩
  obtain ⟨x, hx, hxb⟩ := List.mem_map.1 hmem
  have hxa : f x ≠ f a := fun h => hnodup.1 (h ▸ List.mem_map_of_mem hx)
  refine hfree x ?_ hxa hxb
  exact (List.mem_append.1 hx).elim (List.mem_append_left _) fun hx =>
    List.mem_append_right _ (List.mem_cons_of_mem _ hx)

end Replace

/-! ## One change -/

theorem onRuns_eq_ok {α : Type} {f : List RunRow → Except StoreError α} {a : α} (h : d.onRuns f = .ok a) :
    ∃ runs, d.runs = some runs ∧ d.runRows = runs ∧ f runs = .ok a := by
  unfold onRuns at h
  cases hruns : d.runs with
  | none => rw [hruns] at h; cases h
  | some runs => rw [hruns] at h; exact ⟨runs, rfl, by rw [runRows, hruns]; rfl, h⟩

theorem onEntries_eq_ok {α : Type} {f : List EntryRow → Except StoreError α} {a : α} (h : d.onEntries f = .ok a) :
    ∃ entries, d.entries = some entries ∧ d.entryRows = entries ∧ f entries = .ok a := by
  unfold onEntries at h
  cases hentries : d.entries with
  | none => rw [hentries] at h; cases h
  | some entries => rw [hentries] at h; exact ⟨entries, rfl, by rw [entryRows, hentries]; rfl, h⟩

/-- The id of a run changes only while it has no slices, and to one that is free. -/
theorem Sound.setRun {column : RunColumn} {value : Option Value} {n : Nat} (h : d.Sound)
    (hset : d.setRun id column value = .ok (n, new)) : new.Sound := by
  obtain ⟨runs, -, hrows, hset⟩ := onRuns_eq_ok hset
  cases hfind : runs.find? (·.id = id) with
  | none => rw [hfind] at hset; cases hset; exact h
  | some row =>
    rw [hfind] at hset
    dsimp only at hset
    cases hrow : row.set column value with
    | none => rw [hrow] at hset; cases hset
    | some changed =>
      rw [hrow] at hset
      dsimp only at hset
      split_ifs at hset with hbarred
      cases hset
      have hid : row.id = id := of_decide_eq_true (List.find?_some hfind :)
      obtain ⟨hmem, hslots, hids⟩ := sound_iff.1 h
      rw [hrows] at hmem hids
      refine sound_iff.2 ⟨fun e he => ?_, hslots, nodup_replaceFirst hfind hids fun r hr hne heq => ?_⟩
      · obtain ⟨r, hr, hre⟩ := hmem e he
        by_cases hrid : r = row
        · -- the run has a slice, so it keeps its id
          have hsame : changed.id = id := by
            by_contra hne
            exact hbarred ⟨hne, .inr (List.any_eq_true.2 ⟨e, he, decide_eq_true (by rw [← hre, hrid, hid])⟩)⟩
          exact ⟨changed, mem_replaceFirst_self hfind, by rw [hsame, ← hre, hrid, hid]⟩
        · exact ⟨r, mem_replaceFirst_of_ne hfind hr hrid, hre⟩
      · have hne' : changed.id ≠ id := fun hsame => hne (heq.trans (hsame.trans hid.symm))
        exact hbarred ⟨hne', .inl (List.any_eq_true.2 ⟨r, hr, decide_eq_true heq⟩)⟩

/-- A slice moves only to a run that is there and a position that is free. -/
theorem Sound.setEntry {position : Cell} {column : EntryColumn} {value : Option Value} {n : Nat} (h : d.Sound)
    (hset : d.setEntry id position column value = .ok (n, new)) : new.Sound := by
  obtain ⟨entries, -, hrows, hset⟩ := onEntries_eq_ok hset
  cases hfind : entries.find? (isEntry id position) with
  | none => rw [hfind] at hset; cases hset; exact h
  | some row =>
    rw [hfind] at hset
    dsimp only at hset
    cases hrow : row.set column value with
    | none => rw [hrow] at hset; cases hset
    | some changed =>
      rw [hrow] at hset
      dsimp only at hset
      split_ifs at hset with hrunless htaken
      cases hset
      have hslot : row.slot = (id, position.value) := isEntry_iff.1 (List.find?_some hfind)
      obtain ⟨hmem, hslots, hids⟩ := sound_iff.1 h
      rw [hrows] at hmem hslots
      refine sound_iff.2 ⟨fun e he => ?_, nodup_replaceFirst hfind hslots fun e he hne heq => htaken ?_, hids⟩
      · rcases of_mem_replaceFirst hfind he with rfl | he
        · obtain ⟨r, hr, hre⟩ := List.any_eq_true.1 hrunless
          exact ⟨r, hr, of_decide_eq_true hre⟩
        · exact hmem e he
      · refine List.any_eq_true.2 ⟨e, he, Bool.and_eq_true_iff.2 ⟨?_, isEntry_iff.2 heq⟩⟩
        rw [Bool.not_eq_true', ← Bool.not_eq_true, isEntry_iff, ← hslot]
        exact hne

theorem Sound.deleteRun {n : Nat} (h : d.Sound) (hdelete : d.deleteRun id = .ok (n, new)) : new.Sound := by
  obtain ⟨runs, -, hrows, hdelete⟩ := onRuns_eq_ok hdelete
  cases hdelete
  have hentries : (d.entries.map (·.filter (·.run ≠ id))).getD [] = d.entryRows.filter (·.run ≠ id) := by
    cases he : d.entries with
    | none => rw [entryRows, he]; rfl
    | some entries => rw [entryRows, he]; rfl
  obtain ⟨hmem, hslots, hids⟩ := sound_iff.1 h
  rw [hrows] at hmem hids
  rw [sound_iff, entryRows, hentries]
  refine ⟨fun e he => ?_, hslots.sublist (List.filter_sublist.map _), hids.sublist (List.filter_sublist.map _)⟩
  obtain ⟨he, hne⟩ := List.mem_filter.1 he
  obtain ⟨r, hr, hre⟩ := hmem e he
  exact ⟨r, List.mem_filter.2 ⟨hr, by rw [hre]; exact hne⟩, hre⟩

theorem Sound.deleteEntry {position : Cell} {n : Nat} (h : d.Sound)
    (hdelete : d.deleteEntry id position = .ok (n, new)) : new.Sound := by
  obtain ⟨entries, -, hrows, hdelete⟩ := onEntries_eq_ok hdelete
  cases hdelete
  obtain ⟨hmem, hslots, hids⟩ := sound_iff.1 h
  rw [hrows] at hmem hslots
  exact sound_iff.2 ⟨fun e he => hmem e (List.mem_filter.1 he).1, hslots.sublist (List.filter_sublist.map _), hids⟩

theorem Sound.run_ne_of_fresh (h : d.Sound) (hfresh : d.nextId? = some id) {e : EntryRow} (he : e ∈ d.entryRows) :
    e.run ≠ id := by
  obtain ⟨r, hr, hre⟩ := h.run_mem e he
  exact fun hid => Int64.lt_irrefl ((hre.trans hid) ▸ (toInt_nextId? hfresh).2 r hr)

theorem Sound.insertRun (h : d.Sound) (hinsert : d.insertRun run output = .ok (id, new)) : new.Sound := by
  have hadds := insertRun_eq_ok_iff.1 hinsert
  obtain ⟨hmem, hslots, hids⟩ := sound_iff.1 h
  have hnewSlots : ((newEntries id output).map EntryRow.slot).Nodup := by
    rw [List.Nodup, List.pairwise_map]
    refine (distinct_newEntries hadds.fits).imp fun {a b} hsame hslot => ?_
    rw [Cell.same_iff.2 (congrArg Prod.snd hslot)] at hsame
    cases hsame
  obtain ⟨hruns, hentries⟩ := rows_of_insertRun hinsert
  rw [sound_iff, hruns, hentries, List.map_append, List.map_append, List.nodup_append, List.nodup_append]
  refine ⟨fun e he => ?_, ⟨hslots, hnewSlots, ?_⟩, hids, List.nodup_singleton _, ?_⟩
  · rcases List.mem_append.1 he with he | he
    · obtain ⟨r, hr, hre⟩ := hmem e he
      exact ⟨r, List.mem_append_left _ hr, hre⟩
    · exact ⟨newRow id run output, List.mem_append_right _ (List.mem_singleton.2 rfl), (run_of_mem_newEntries he).symm⟩
  · intro x hx y hy hxy
    obtain ⟨e, he, rfl⟩ := List.mem_map.1 hx
    obtain ⟨e', he', rfl⟩ := List.mem_map.1 hy
    exact h.run_ne_of_fresh hadds.fresh he ((congrArg Prod.fst hxy).trans (run_of_mem_newEntries he'))
  · intro x hx y hy hxy
    obtain ⟨r, hr, rfl⟩ := List.mem_map.1 hx
    rw [List.mem_singleton.1 hy] at hxy
    exact Int64.lt_irrefl (hxy ▸ (toInt_nextId? hadds.fresh).2 r hr)

/-! ## Any changes -/

/-- **One change to a database**, by this program or by others. -/
inductive Edited : Database → Database → Prop where
  | opened {d new : Database} : d.migrate = .ok new → Edited d new
  | recorded {d new : Database} {run : NewRun} {output : BatchOutput} {id : Int64} :
      d.insertRun run output = .ok (id, new) → Edited d new
  | runSet {d new : Database} {id : Int64} {column : RunColumn} {value : Option Value} {n : Nat} :
      d.setRun id column value = .ok (n, new) → Edited d new
  | entrySet {d new : Database} {id : Int64} {position : Cell} {column : EntryColumn} {value : Option Value} {n : Nat} :
      d.setEntry id position column value = .ok (n, new) → Edited d new
  | runDeleted {d new : Database} {id : Int64} {n : Nat} : d.deleteRun id = .ok (n, new) → Edited d new
  | entryDeleted {d new : Database} {id : Int64} {position : Cell} {n : Nat} :
      d.deleteEntry id position = .ok (n, new) → Edited d new
  | versionSet {d : Database} (n : Int) : Edited d (d.setVersion n)

theorem Edited.sound (h : Edited d new) (hd : d.Sound) : new.Sound := by
  cases h with
  | opened hmigrate => exact hd.congr (rows_of_migrate hmigrate).1 (rows_of_migrate hmigrate).2
  | recorded hinsert => exact hd.insertRun hinsert
  | runSet hset => exact hd.setRun hset
  | entrySet hset => exact hd.setEntry hset
  | runDeleted hdelete => exact hd.deleteRun hdelete
  | entryDeleted hdelete => exact hd.deleteEntry hdelete
  | versionSet n => exact hd.congr rfl rfl

/-- **Whatever is done to a new database, its tables go together.** -/
theorem sound_of_edits (h : Relation.ReflTransGen Edited .blank d) : d.Sound := by
  induction h with
  | refl => exact ⟨nofun, .nil, .nil⟩
  | tail _ hlast ih => exact hlast.sound ih

/-! ## Recording among other hands -/

/-- **A sound database takes every run for which it has tables and an id.** -/
theorem Sound.insertRun_iff (h : d.Sound) : (∃ id new, d.insertRun run output = .ok (id, new)) ↔
    d.runs.isSome ∧ d.entries.isSome ∧ d.nextId?.isSome ∧
      (output.codeSlices.length : Int) ≤ Int64.maxValue.toInt := by
  simp only [insertRun_eq_ok_iff]
  constructor
  · rintro ⟨id, new, hadds⟩
    exact ⟨hadds.runs, hadds.entries, by rw [hadds.fresh]; rfl, hadds.fits⟩
  · rintro ⟨hruns, hentries, hid, hfits⟩
    obtain ⟨id, hfresh⟩ := Option.isSome_iff_exists.1 hid
    refine ⟨id, _, hfresh, hfits, hruns, hentries, fun a ha b hb => ?_, rfl⟩
    rw [isEntry, run_of_mem_newEntries hb, decide_eq_false (h.run_ne_of_fresh hfresh ha), Bool.false_and]

/-- **The output of a run is read back**, whatever else is in the tables. -/
theorem Sound.loadOutput_insertRun (h : d.Sound) (hinsert : d.insertRun run output = .ok (id, new)) :
    new.loadOutput id = .ok ⟨output.codeSlices, output.labels.take output.codeSlices.length⟩ := by
  have hadds := insertRun_eq_ok_iff.1 hinsert
  let entered : Recorded := ⟨id, run, output⟩
  have hget : new.getRun id = .ok entered.record := (getRun_insertRun hinsert).trans (Ledger.record_newRow entered)
  have hnone : d.entryRows.filter (·.run = id) = [] :=
    List.filter_eq_nil_iff.2 fun e he => by simpa using h.run_ne_of_fresh hadds.fresh he
  have hentries : new.entriesOf id = newEntries id output := by
    rw [entriesOf, (rows_of_insertRun hinsert).2, List.filter_append, hnone, List.nil_append,
      Ledger.filter_newEntries, if_pos rfl, Ledger.mergeSort_newEntries hadds.fits]
  obtain ⟨rows, hrows⟩ : ∃ rows, new.entries = some rows := by
    rw [hadds.added]
    exact ⟨_, rfl⟩
  rw [loadOutput, hget, hrows]
  change Except.ok (⟨(new.entriesOf id).map (·.text), (new.entriesOf id).filterMap (·.label)⟩ : BatchOutput) = _
  rw [hentries, Ledger.map_text_newEntries, Ledger.filterMap_label_newEntries]

theorem countEntries_eq_ok {n : Nat} (h : d.countEntries id = .ok n) : n = (d.entriesOf id).length := by
  obtain ⟨entries, -, hrows, hcount⟩ := onEntries_eq_ok h
  rw [entriesOf, List.length_mergeSort, hrows, ← List.countP_eq_length_filter]
  exact (Except.ok.inj hcount).symm

end Database
end SourceSlice
