import SourceSlice.Proofs.Work
import SourceSlice.Results.Store
/-!
# Transactions

Statements in a transaction work on a copy of the database, which becomes the database when the transaction is done and
is thrown away when one of them fails.  So work that comes to a change of the copy (`Statements.ComesTo`) makes this
change as a whole or none (`Statements.transaction_eq`), however many statements it has.

Recording a run is such work.  It fails with an error of the database and changes nothing, or it adds one row for the
run and one for each slice (`Database.insertRun_eq_ok_iff`).
-/
namespace SourceSlice

open Work

variable {α β : Type}

namespace Statements

/-- **Work comes to a change of a transaction's copy**: what is committed stays, and the transaction stays open. -/
def ComesTo (work : Statements α) (change : StateT Database (Except StoreError) α) : Prop := ∀ committed d,
  Ends work ⟨committed, some d⟩ (fun a c => ∃ new, change d = .ok (a, new) ∧ c = ⟨committed, some new⟩)
    (fun e c => change d = .error e ∧ ∃ left, c = ⟨committed, some left⟩)

namespace ComesTo

variable {work : Statements α} {change : StateT Database (Except StoreError) α} {next : α → Statements β}
  {next' : α → StateT Database (Except StoreError) β}

theorem pure (a : α) : ComesTo (Pure.pure a) (Pure.pure a) := fun _ d => ⟨d, rfl, rfl⟩

theorem execute (f : Database → Except StoreError (α × Database)) : ComesTo (execute f) f := by
  intro committed d
  unfold Ends Statements.execute
  cases hf : f d with
  | error e =>
    have hrun : f ((Connection.mk committed (some d)).working.getD committed) = .error e := hf
    rw [hrun]
    exact ⟨rfl, d, rfl⟩
  | ok r =>
    have hrun : f ((Connection.mk committed (some d)).working.getD committed) = .ok r := hf
    rw [hrun]
    exact ⟨r.2, rfl, rfl⟩

theorem bind (hwork : ComesTo work change) (hnext : ∀ a, ComesTo (next a) (next' a)) :
    ComesTo (work >>= next) (change >>= next') := by
  intro committed d
  refine .bind ((hwork committed d).imp ?_ ?_)
  · rintro a c ⟨new, hchange, rfl⟩
    have hboth : (change >>= next') d = next' a new := by
      change (change d >>= fun r => next' r.1 r.2) = _
      rw [hchange]
      rfl
    rw [hboth]
    exact hnext a committed new
  · rintro e c ⟨hchange, hleft⟩
    refine ⟨?_, hleft⟩
    change (change d >>= fun r => next' r.1 r.2) = _
    rw [hchange]
    rfl

theorem forM {γ : Type} {f : γ → Statements PUnit} {f' : γ → StateT Database (Except StoreError) PUnit}
    (h : ∀ x, ComesTo (f x) (f' x)) : ∀ l : List γ, ComesTo (l.forM f) (l.forM f')
  | [] => .pure _
  | x :: rest => .bind (h x) fun _ => forM h rest

end ComesTo

/-- **A transaction is carried out as a whole or not at all.** -/
theorem transaction_eq {work : Statements α} {change : StateT Database (Except StoreError) α}
    (h : ComesTo work change) (d : Database) : transaction work ⟨d, none⟩ =
      match change d with
      | .ok (a, new) => .ok a ⟨new, none⟩
      | .error e => .error e ⟨d, none⟩ := by
  have hbegin : begin ⟨d, none⟩ = .ok () ⟨d, some d⟩ := rfl
  have hwork := h d d
  unfold transaction
  rw [bind_of_ok hbegin]
  cases hrun : work ⟨d, some d⟩ with
  | ok a c =>
    obtain ⟨new, hchange, rfl⟩ := hwork.of_ok hrun
    have htry : (do let a ← work; commit; pure a : Statements α) ⟨d, some d⟩ = .ok a ⟨new, none⟩ := by
      rw [bind_of_ok hrun]
      rfl
    rw [hchange]
    exact tryCatch_of_ok htry
  | error e c =>
    obtain ⟨hchange, left, rfl⟩ := hwork.of_error hrun
    have htry : (do let a ← work; commit; pure a : Statements α) ⟨d, some d⟩ = .error e ⟨d, some left⟩ :=
      bind_of_error hrun
    rw [hchange]
    exact tryCatch_of_error htry

end Statements

namespace Database

variable {d new : Database} {id : Int64} {run : NewRun} {output : BatchOutput} {e : StoreError}
  {entries es : List EntryRow}

def addEntries (es : List EntryRow) : StateT Database (Except StoreError) PUnit := es.forM insertEntry

def addSlices (id : Int64) (output : BatchOutput) : StateT Database (Except StoreError) PUnit := do
  prepareEntries
  addEntries (newEntries id output)

def addRun (run : NewRun) (output : BatchOutput) : StateT Database (Except StoreError) Int64 := do
  let id ← insertRow run output
  addSlices id output
  return id

theorem comesTo_addRun (run : NewRun) (output : BatchOutput) :
    Statements.ComesTo (Statements.insertRows run output) (addRun run output) := by
  have hslices (id : Int64) : addSlices id output >>= (fun _ => pure id) = prepareEntries >>= fun _ =>
      addEntries (newEntries id output) >>= fun _ => (pure id : StateT Database (Except StoreError) Int64) :=
    bind_assoc _ _ _
  unfold addRun
  simp only [hslices]
  exact .bind (.execute _) fun _ => .bind (.execute _) fun _ => .bind (.forM (fun _ => .execute _) _) fun _ => .pure _

/-- **Recording a run adds all its rows or none.** -/
theorem insertRun_run (d : Database) (run : NewRun) (output : BatchOutput) :
    Statements.insertRun run output ⟨d, none⟩ =
      match addRun run output d with
      | .ok (id, new) => .ok id ⟨new, none⟩
      | .error e => .error e ⟨d, none⟩ := by
  rw [Statements.insertRun, Statements.transaction_eq (comesTo_addRun run output)]
  cases addRun run output d with
  | ok r => rfl
  | error e => rfl

theorem insertRun_eq_addRun (d : Database) (run : NewRun) (output : BatchOutput) :
    d.insertRun run output = addRun run output d := by
  rw [insertRun, insertRun_run]
  cases addRun run output d with
  | ok r => rfl
  | error e => rfl

/-! ## Slices one after the other -/

/-- **Slices can be added one after the other**: each has its run, and a position that none before it has. -/
def Takes (d : Database) : List EntryRow → List EntryRow → Prop
  | _, [] => True
  | entries, e :: es => entries.any (isEntry e.run e.position) = false ∧ d.runRows.any (·.id = e.run) = true ∧
    d.Takes (entries ++ [e]) es

theorem takes_congr {d' : Database} (h : d'.runRows.map (·.id) = d.runRows.map (·.id)) :
    ∀ {es entries : List EntryRow}, d'.Takes entries es ↔ d.Takes entries es
  | [], _ => Iff.rfl
  | e :: es, entries => by
    have hany (rows : List RunRow) : rows.any (·.id = e.run) = (rows.map (·.id)).any (· = e.run) := by
      rw [List.any_map]
      rfl
    rw [Takes, Takes, hany, hany, h, takes_congr h]

theorem addEntries_cons_of_ok {e : EntryRow} (h : insertEntry e d = .ok (⟨⟩, new)) :
    addEntries (e :: es) d = addEntries es new := by
  change (insertEntry e d >>= fun r => addEntries es r.2) = _
  rw [h]
  rfl

theorem addEntries_cons_of_error {e : EntryRow} {error : StoreError} (h : insertEntry e d = .error error) :
    addEntries (e :: es) d = .error error := by
  change (insertEntry e d >>= fun r => addEntries es r.2) = _
  rw [h]
  rfl

theorem addEntries_cases : ∀ {es entries : List EntryRow} {d : Database}, d.entries = some entries →
    (d.Takes entries es ∧ addEntries es d = .ok (⟨⟩, { d with entries := some (entries ++ es) })) ∨
      (¬ d.Takes entries es ∧ ∃ detail, addEntries es d = .error (.sql detail))
  | [], entries, d, hd => by
    refine .inl ⟨trivial, ?_⟩
    rw [List.append_nil, ← hd]
    rfl
  | e :: es, entries, d, hd => by
    by_cases htaken : entries.any (isEntry e.run e.position) = true
    · have hstep : insertEntry e d = .error (.sql "the position is taken") := by
        rw [insertEntry, hd]
        exact if_pos htaken
      refine .inr ⟨fun h => Bool.false_ne_true (h.1.symm.trans htaken), _, addEntries_cons_of_error hstep⟩
    by_cases hrun : d.runRows.any (·.id = e.run) = true
    · let after : Database := { d with entries := some (entries ++ [e]) }
      have hstep : insertEntry e d = .ok (⟨⟩, after) := by
        rw [insertEntry, hd]
        exact (if_neg htaken).trans (if_neg (not_not_intro hrun))
      have htakes : d.Takes entries (e :: es) ↔ after.Takes (entries ++ [e]) es := by
        rw [Takes, Bool.eq_false_iff.2 htaken, hrun, @takes_congr d after rfl]
        simp only [true_and]
      have hrest := @addEntries_cases es (entries ++ [e]) after rfl
      rw [List.append_assoc, List.singleton_append] at hrest
      rw [addEntries_cons_of_ok hstep, htakes]
      exact hrest
    · have hstep : insertEntry e d = .error (.sql "a slice needs its run") := by
        rw [insertEntry, hd]
        exact (if_neg htaken).trans (if_pos hrun)
      exact .inr ⟨fun h => hrun h.2.1, _, addEntries_cons_of_error hstep⟩

theorem takes_iff (hruns : ∀ e ∈ es, d.runRows.any (·.id = e.run) = true) : d.Takes entries es ↔
    (∀ a ∈ entries, ∀ b ∈ es, isEntry b.run b.position a = false) ∧
      es.Pairwise fun a b => isEntry b.run b.position a = false := by
  induction es generalizing entries with
  | nil => simp [Takes]
  | cons e es ih =>
    rw [List.forall_mem_cons] at hruns
    simp only [Takes, hruns.1, true_and, ih hruns.2, List.any_eq_false, List.mem_append, List.mem_cons,
      List.not_mem_nil, or_false, forall_eq_or_imp, List.pairwise_cons, Bool.not_eq_true]
    constructor
    · rintro ⟨hfirst, hothers, hlater⟩
      exact ⟨fun a ha => ⟨hfirst a ha, fun b hb => hothers a (.inl ha) b hb⟩,
        fun b hb => hothers e (.inr rfl) b hb, hlater⟩
    · rintro ⟨hfree, hown, hlater⟩
      refine ⟨fun a ha => (hfree a ha).1, ?_, hlater⟩
      rintro a (ha | rfl) b hb
      · exact (hfree a ha).2 b hb
      · exact hown b hb

/-! ## The rows of a run -/

theorem run_of_mem_newEntries {x : EntryRow} (hx : x ∈ newEntries id output) : x.run = id := by
  obtain ⟨i, hi, rfl⟩ := List.mem_mapIdx.1 hx
  rfl

theorem length_pair : ∀ texts labels : List String, (BatchOutput.pair texts labels).length = texts.length
  | [], _ => rfl
  | _ :: texts, [] => congrArg (· + 1) (length_pair texts [])
  | _ :: texts, _ :: labels => congrArg (· + 1) (length_pair texts labels)

theorem pairwise_newEntries (hfits : (output.codeSlices.length : Int) ≤ Int64.maxValue.toInt) :
    (newEntries id output).Pairwise fun a b =>
      ∃ m n : Int64, a.position = .number m ∧ b.position = .number n ∧ m < n := by
  have hmax : Int64.maxValue.toInt = 9223372036854775807 := by decide
  have hlength : (newEntries id output).length = output.codeSlices.length :=
    List.length_mapIdx.trans (length_pair _ _)
  rw [List.pairwise_iff_getElem]
  intro i j hi hj hij
  simp only [newEntries, List.getElem_mapIdx]
  refine ⟨_, _, rfl, rfl, Int64.lt_iff_toInt_lt.2 ?_⟩
  rw [Int64.toInt_ofNat_of_lt (by omega), Int64.toInt_ofNat_of_lt (by omega)]
  omega

theorem distinct_newEntries (hfits : (output.codeSlices.length : Int) ≤ Int64.maxValue.toInt) :
    (newEntries id output).Pairwise fun a b => a.position.same b.position = false := by
  refine (pairwise_newEntries hfits).imp fun ⟨m, n, ha, hb, hlt⟩ => ?_
  rw [ha, hb]
  exact decide_eq_false fun e => Int64.lt_irrefl (e ▸ hlt)

/-! ## One run more -/

/-- **A run and its slices in the tables**, under an id that was never given. -/
structure Adds (d : Database) (run : NewRun) (output : BatchOutput) (id : Int64) (new : Database) : Prop where
  fresh : d.nextId? = some id
  fits : (output.codeSlices.length : Int) ≤ Int64.maxValue.toInt
  runs : d.runs.isSome
  entries : d.entries.isSome
  /-- What others may have left under the new id has other positions. -/
  free : ∀ a ∈ d.entryRows, ∀ b ∈ newEntries id output, isEntry b.run b.position a = false
  added : new = { d with runs := some (d.runRows ++ [newRow id run output]),
                         entries := some (d.entryRows ++ newEntries id output), lastId := id }

theorem insertRow_cases (d : Database) (run : NewRun) (output : BatchOutput) :
    (∃ id, d.runs.isSome ∧ d.nextId? = some id ∧ (output.codeSlices.length : Int) ≤ Int64.maxValue.toInt ∧
      insertRow run output d
        = .ok (id, { d with runs := some (d.runRows ++ [newRow id run output]), lastId := id })) ∨
      ((∃ detail, insertRow run output d = .error (.sql detail)) ∧ ¬ (d.runs.isSome ∧ d.nextId?.isSome ∧
        (output.codeSlices.length : Int) ≤ Int64.maxValue.toInt)) := by
  unfold insertRow
  cases hruns : d.runs with
  | none => exact .inr ⟨⟨_, rfl⟩, fun h => nomatch h.1⟩
  | some runs =>
    cases hid : d.nextId? with
    | none => exact .inr ⟨⟨_, rfl⟩, fun h => nomatch h.2.1⟩
    | some id =>
      dsimp only
      split
      next hmore => exact .inr ⟨⟨_, rfl⟩, fun h => Int.not_lt.2 h.2.2 hmore⟩
      next hfits => exact .inl ⟨id, rfl, rfl, Int.not_lt.1 hfits, by rw [runRows, hruns]; rfl⟩

theorem addSlices_cases (d : Database) (hrun : d.runRows.any (·.id = id) = true)
    (hfits : (output.codeSlices.length : Int) ≤ Int64.maxValue.toInt) :
    (addSlices id output d = .ok (⟨⟩, { d with entries := some (d.entryRows ++ newEntries id output) }) ∧
      d.entries.isSome ∧ ∀ a ∈ d.entryRows, ∀ b ∈ newEntries id output, isEntry b.run b.position a = false) ∨
      ((∃ detail, addSlices id output d = .error (.sql detail)) ∧ ¬ (d.entries.isSome ∧
        ∀ a ∈ d.entryRows, ∀ b ∈ newEntries id output, isEntry b.run b.position a = false)) := by
  have hsteps : addSlices id output d = prepareEntries d >>= fun p => addEntries (newEntries id output) p.2 := rfl
  rw [hsteps, prepareEntries]
  cases hentries : d.entries with
  | none => exact .inr ⟨⟨_, rfl⟩, fun h => nomatch h.1⟩
  | some entries =>
    have hrows : d.entryRows = entries := by rw [entryRows, hentries]; rfl
    have hpositions : (newEntries id output).Pairwise fun a b => isEntry b.run b.position a = false :=
      (distinct_newEntries hfits).imp fun hab => Bool.and_eq_false_iff.2 (.inr hab)
    have htakes : d.Takes entries (newEntries id output) ↔
        ∀ a ∈ d.entryRows, ∀ b ∈ newEntries id output, isEntry b.run b.position a = false := by
      rw [takes_iff fun e he => by rw [run_of_mem_newEntries he]; exact hrun, hrows]
      exact and_iff_left hpositions
    change (addEntries (newEntries id output) d = _ ∧ _) ∨ (∃ detail, addEntries (newEntries id output) d = _) ∧ _
    rw [← htakes, hrows]
    rcases @addEntries_cases (newEntries id output) entries d hentries with ⟨ht, hadd⟩ | ⟨ht, hadd⟩
    · exact .inl ⟨hadd, rfl, ht⟩
    · exact .inr ⟨hadd, fun h => ht h.2⟩

/-- **Recording adds one run or fails with an error of the database.** -/
theorem insertRun_cases (d : Database) (run : NewRun) (output : BatchOutput) :
    (∃ id new, d.Adds run output id new ∧ d.insertRun run output = .ok (id, new)) ∨
      ((∃ detail, d.insertRun run output = .error (.sql detail)) ∧ ∀ id new, ¬ d.Adds run output id new) := by
  rw [insertRun_eq_addRun]
  have hsteps : addRun run output d = insertRow run output d >>= fun r =>
      addSlices r.1 output r.2 >>= fun q => .ok (r.1, q.2) := rfl
  rw [hsteps]
  rcases insertRow_cases d run output with ⟨id, hruns, hid, hfits, hrow⟩ | ⟨⟨detail, hrow⟩, hnot⟩
  · let middle : Database := { d with runs := some (d.runRows ++ [newRow id run output]), lastId := id }
    have hmem : middle.runRows.any (·.id = id) = true := by
      refine List.any_eq_true.2 ⟨newRow id run output, List.mem_append_right _ (List.mem_singleton.2 rfl), ?_⟩
      exact decide_eq_true rfl
    have hthen : (insertRow run output d >>= fun r => addSlices r.1 output r.2 >>= fun q => Except.ok (r.1, q.2))
        = addSlices id output middle >>= fun q => Except.ok (id, q.2) := by
      rw [hrow]
      rfl
    rw [hthen]
    rcases addSlices_cases middle hmem hfits with ⟨hadd, hentries, hfree⟩ | ⟨⟨detail, hadd⟩, hnot⟩
    · exact .inl ⟨id, _, ⟨hid, hfits, hruns, hentries, hfree, rfl⟩, by rw [hadd]; rfl⟩
    · refine .inr ⟨⟨detail, by rw [hadd]; rfl⟩, fun id' new h => hnot ⟨h.entries, ?_⟩⟩
      obtain rfl : id = id' := Option.some.inj (hid.symm.trans h.fresh)
      exact h.free
  · refine .inr ⟨⟨detail, by rw [hrow]; rfl⟩, fun id new h => hnot ⟨h.runs, ?_, h.fits⟩⟩
    rw [h.fresh]
    rfl

/-- **A run is recorded exactly when it can be added**, and then it was. -/
theorem insertRun_eq_ok_iff : d.insertRun run output = .ok (id, new) ↔ d.Adds run output id new := by
  rcases insertRun_cases d run output with ⟨id', new', hadds, hok⟩ | ⟨⟨detail, herror⟩, hnot⟩
  · rw [hok]
    constructor
    · rintro ⟨⟩
      exact hadds
    · intro h
      obtain rfl : id' = id := Option.some.inj (hadds.fresh.symm.trans h.fresh)
      rw [h.added, hadds.added]
  · rw [herror]
    exact ⟨nofun, fun h => absurd h (hnot id new)⟩

theorem exists_sql_of_insertRun (h : d.insertRun run output = .error e) : ∃ detail, e = .sql detail := by
  rcases insertRun_cases d run output with ⟨id, new, -, hok⟩ | ⟨⟨detail, herror⟩, -⟩
  · rw [hok] at h
    cases h
  · rw [herror] at h
    exact ⟨detail, (Except.error.inj h).symm⟩

end Database
end SourceSlice
