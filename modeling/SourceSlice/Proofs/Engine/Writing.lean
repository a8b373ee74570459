import SourceSlice.Proofs.Engine.Grammar
/-!
# Selections as reports

Which selections a report can describe: no file has two entries or a name that breaks its line, no line has the number
zero, and a file whose name is blank has lines, or else its line would be blank too (`Selection.Reportable`).  Reading
a line keeps to this (`Reportable.addLine`), so every selection that is read does.  The other way round, such a
selection is written with a line for each entry, and reading that adds the entry (`addLine_reportLine`):
`write_roundTrip`.
-/
namespace SourceSlice

namespace Text

theorem mem_joinWith {sep c : Char} : ∀ {pieces : List (List Char)}, c ∈ joinWith sep pieces →
    c = sep ∨ ∃ piece ∈ pieces, c ∈ piece
  | [piece], h => .inr ⟨piece, List.mem_cons_self, h⟩
  | piece :: next :: rest, h => by
    rcases List.mem_append.1 h with h | h
    · exact .inr ⟨piece, List.mem_cons_self, h⟩
    · rcases List.mem_cons.1 h with h | h
      · exact .inl h
      · refine (mem_joinWith h).imp_right ?_
        rintro ⟨other, hother, hc⟩
        exact ⟨other, List.mem_cons_of_mem _ hother, hc⟩

end Text

open Text Report

namespace Entry

structure Reportable (e : Entry) : Prop where
  separators : ',' ∉ e.file.toList ∧ '\n' ∉ e.file.toList
  numbers : ∀ n ∈ e.lines, 1 ≤ n.toNat ∧ n.toNat ≤ LineNumber.greatest
  shown : (∀ c ∈ e.file.toList, isBlank c = true) → ∃ n, n ∈ e.lines

def reportLine (e : Entry) : List Char :=
  joinWith ',' (e.file.toList :: e.lines.toList.map fun n => (toString n.toNat).toList)

end Entry

/-- **The selections that reports describe.** -/
structure Selection.Reportable (s : Selection) : Prop where
  distinct : s.Distinct
  entries : ∀ e ∈ s.entries, e.Reportable

/-- **A selection as a report**: a line for each entry, ended by `\r\n`. -/
def Report.write (s : Selection) : String := String.ofList (s.entries.flatMap fun e => e.reportLine ++ ['\r', '\n'])

theorem selectionOf_eq_ok_iff {report : String} {s : Selection} : selectionOf report = .ok s ↔ parse report = .ok s := by
  unfold selectionOf
  cases parse report <;> simp [Except.mapError]

/-! ## What is read can be written -/

theorem Report.InLines.newline_not_mem {report : List Char} {l : List (List Char)} (h : Report.InLines report l) :
    ∀ line ∈ l, '\n' ∉ line := by
  induction h with
  | last hline => simpa using hline
  | line hline _ _ ih => exact List.forall_mem_cons.2 ⟨hline, ih⟩
  | returned hline _ ih => exact List.forall_mem_cons.2 ⟨hline, ih⟩

theorem Report.good_of_numbers {line : List Char} {fields : List (List Char)} {ns : List UInt32}
    (h : numbers line fields = .ok ns) :
    (∀ field ∈ fields, ∃ n, Spells field n) ∧ ∀ n, n ∈ ns ↔ ∃ field ∈ fields, Spells field n := by
  have hgood : ∀ field ∈ fields, ∃ n, Spells field n := by
    by_contra hnot
    obtain ⟨pre, field, post, rfl, hpre, hfield⟩ := Work.exists_first_not hnot
    rw [numbers_of_not_good line hfield hpre] at h
    cases h
  obtain ⟨ns', hns', hmem⟩ := numbers_of_good line hgood
  rw [h] at hns'
  cases hns'
  exact ⟨hgood, hmem⟩

namespace Selection

variable {s t : Selection} {file : String} {line : List Char}

theorem forall_mem_updateEntries {P : Entry → Prop} {change : LineSet → LineSet} (hnew : P ⟨file, change ∅⟩)
    (hold : ∀ lines, P ⟨file, lines⟩ → P ⟨file, change lines⟩) :
    ∀ {l : List Entry}, (∀ e ∈ l, P e) → ∀ e ∈ updateEntries file change l, P e
  | [], _ => by simpa [updateEntries] using hnew
  | e :: rest, h => by
    obtain ⟨hfirst, hrest⟩ := List.forall_mem_cons.1 h
    by_cases he : e.file = file
    · subst he
      rw [updateEntries, if_pos rfl]
      exact List.forall_mem_cons.2 ⟨hold e.lines hfirst, hrest⟩
    · rw [updateEntries, if_neg he]
      exact List.forall_mem_cons.2 ⟨hfirst, forall_mem_updateEntries hnew hold hrest⟩

theorem reportable_empty : Reportable ∅ := ⟨distinct_empty, nofun⟩

theorem Reportable.insertMany (h : s.Reportable) {ns : List UInt32} (hfile : ',' ∉ file.toList ∧ '\n' ∉ file.toList)
    (hns : ∀ n ∈ ns, 1 ≤ n.toNat) (hshown : (∀ c ∈ file.toList, isBlank c = true) → ns ≠ []) :
    (s.insertMany file ns).Reportable where
  distinct := h.distinct.update _ _
  entries := by
    have hadded (lines : LineSet) (hlines : ∀ n ∈ lines, 1 ≤ n.toNat) :
        (⟨file, lines.insertMany ns⟩ : Entry).Reportable := by
      refine ⟨hfile, fun n hn => ⟨?_, ?_⟩, fun hblank => ?_⟩
      · rcases LineSet.mem_insertMany.1 hn with hn | hn
        · exact hns n hn
        · exact hlines n hn
      · have := n.toNat_lt
        simp only [LineNumber.greatest]
        omega
      · obtain ⟨n, hn⟩ := List.exists_mem_of_ne_nil _ (hshown hblank)
        exact ⟨n, LineSet.mem_insertMany.2 (.inl hn)⟩
    exact forall_mem_updateEntries (hadded ∅ (by simp))
      (fun lines hlines => hadded lines fun n hn => (hlines.numbers n hn).1) h.entries

/-- **A line of a report leaves a selection that can be written.**  Where the name on the line is blank the line is not,
so there is a number after it. -/
theorem Reportable.addLine (h : s.Reportable) (hline : '\n' ∉ line) (ht : Report.addLine s line = .ok t) :
    t.Reportable := by
  by_cases hblank : line.all isBlank = true
  · rw [addLine_of_blank s hblank] at ht
    cases ht
    exact h
  · rw [addLine_of_not_blank s (Bool.eq_false_iff.2 hblank)] at ht
    obtain ⟨-, hpieces, hjoin⟩ := pieces_recordOf line
    cases hns : numbers line (recordOf line).fields with
    | error fault => rw [hns] at ht; cases ht
    | ok ns =>
      rw [hns] at ht
      cases ht
      obtain ⟨hgood, hmem⟩ := good_of_numbers hns
      refine h.insertMany ?_ (fun n hn => ?_) fun hname => ?_
      · rw [String.toList_ofList]
        refine ⟨hpieces _ List.mem_cons_self, fun hmem => hline ?_⟩
        rw [← hjoin]
        cases (recordOf line).fields with
        | nil => exact hmem
        | cons field fields => exact List.mem_append_left _ hmem
      · obtain ⟨field, -, hspells⟩ := (hmem n).1 hn
        exact hspells.positive
      · rw [String.toList_ofList] at hname
        cases hfields : (recordOf line).fields with
        | nil =>
          rw [hfields] at hjoin
          exact absurd (List.all_eq_true.2 (hjoin ▸ hname)) hblank
        | cons field fields =>
          have hfield : field ∈ (recordOf line).fields := hfields ▸ List.mem_cons_self
          obtain ⟨n, hspells⟩ := hgood field hfield
          exact List.ne_nil_of_mem ((hmem n).2 ⟨field, hfield, hspells⟩)

theorem Reportable.addLines : ∀ {l : List (List Char)} {s t : Selection}, s.Reportable → (∀ line ∈ l, '\n' ∉ line) →
    Report.addLines s l = .ok t → t.Reportable
  | [], _, _, h, _, ht => by cases ht; exact h
  | line :: rest, s, t, h, hl, ht => by
    obtain ⟨hline, hrest⟩ := List.forall_mem_cons.1 hl
    rw [Report.addLines] at ht
    cases hstep : Report.addLine s line with
    | error fault => rw [hstep] at ht; cases ht
    | ok u =>
      rw [hstep] at ht
      exact (h.addLine hline hstep).addLines hrest ht

theorem reportable_of_selectionOf {report : String} (h : selectionOf report = .ok s) : s.Reportable :=
  reportable_empty.addLines (inLines_lines report.toList).newline_not_mem (selectionOf_eq_ok_iff.1 h)

end Selection

/-! ## What is written is read back -/

namespace Report

theorem spells_toString {n : UInt32} (h : 1 ≤ n.toNat) : Spells (toString n.toNat).toList n := by
  have hdigits : ∀ c ∈ Nat.toDigits 10 n.toNat, c.isDigit = true := fun c hc =>
    Nat.isDigit_of_mem_toDigits (by decide) (by decide) hc
  exact ⟨⟨[], [], Nat.toDigits 10 n.toNat, [], by simp, nofun, nofun, .inl rfl, Nat.toDigits_ne_nil, hdigits,
    Nat.ofDigitChars_ten_toDigits⟩, h⟩

theorem numbers_toString (line : List Char) : ∀ {ns : List UInt32}, (∀ n ∈ ns, 1 ≤ n.toNat) →
    numbers line (ns.map fun n => (toString n.toNat).toList) = .ok ns
  | [], _ => rfl
  | n :: ns, h => by
    obtain ⟨hn, hns⟩ := List.forall_mem_cons.1 h
    have hne : n ≠ 0 := by
      rintro rfl
      exact absurd hn (by decide)
    have hread := parseField?_eq_some_iff (l := ⟨n, hne⟩).2 (spells_toString hn)
    rw [List.map_cons, numbers, hread, numbers_toString line hns]
    rfl

theorem not_mem_toString {c : Char} (hc : c.isDigit = false) (n : Nat) : c ∉ (toString n).toList := by
  intro hmem
  rw [Nat.toString_eq_repr, Nat.toList_repr] at hmem
  rw [Nat.isDigit_of_mem_toDigits (by decide) (by decide) hmem] at hc
  cases hc

variable {e : Entry} {s : Selection}

theorem splitOn_reportLine (h : e.Reportable) :
    splitOn ',' e.reportLine = e.file.toList :: e.lines.toList.map fun n => (toString n.toNat).toList := by
  refine splitOn_joinWith (List.cons_ne_nil _ _) (List.forall_mem_cons.2 ⟨h.separators.1, fun piece hpiece => ?_⟩)
  obtain ⟨n, -, rfl⟩ := List.mem_map.1 hpiece
  exact not_mem_toString rfl n.toNat

theorem newline_not_mem_reportLine (h : e.Reportable) : '\n' ∉ e.reportLine := by
  intro hmem
  rcases mem_joinWith hmem with hcomma | ⟨piece, hpiece, hmem⟩
  · exact absurd hcomma (by decide)
  · rcases List.mem_cons.1 hpiece with rfl | hpiece
    · exact h.separators.2 hmem
    · obtain ⟨n, -, rfl⟩ := List.mem_map.1 hpiece
      exact not_mem_toString rfl n.toNat hmem

theorem reportLine_not_blank (h : e.Reportable) : e.reportLine.all isBlank = false := by
  rw [List.all_eq_false]
  cases hlines : e.lines.toList with
  | nil =>
    by_contra hnot
    have hblank : ∀ c ∈ e.file.toList, isBlank c = true := fun c hc => by
      by_contra hc'
      refine hnot ⟨c, ?_, hc'⟩
      rw [Entry.reportLine, hlines]
      exact hc
    obtain ⟨n, hn⟩ := h.shown hblank
    rw [LineSet.mem_def, hlines] at hn
    cases hn
  | cons n ns =>
    refine ⟨',', ?_, by decide⟩
    rw [Entry.reportLine, hlines]
    exact List.mem_append_right _ List.mem_cons_self

end Report

namespace Selection

variable {s : Selection} {e : Entry}

theorem insertMany_toList_of_new (h : e.file ∉ s.files) :
    s.insertMany e.file e.lines.toList = ⟨s.entries ++ [e]⟩ := by
  have hlines : (∅ : LineSet).insertMany e.lines.toList = e.lines := LineSet.ext_mem fun n => by
    simp [← LineSet.mem_def]
  suffices hl : ∀ l : List Entry, e.file ∉ l.map (·.file) →
      updateEntries e.file (·.insertMany e.lines.toList) l = l ++ [e] from congrArg mk (hl s.entries h)
  intro l hl
  induction l with
  | nil => simp [updateEntries, hlines]
  | cons first rest ih =>
    rw [List.map_cons, List.mem_cons, not_or] at hl
    rw [updateEntries, if_neg (Ne.symm hl.1), ih hl.2, List.cons_append]

end Selection

namespace Report

variable {e : Entry} {s : Selection}

theorem addLine_reportLine (h : e.Reportable) (hnew : e.file ∉ s.files) :
    addLine s e.reportLine = .ok ⟨s.entries ++ [e]⟩ := by
  have hfile : (recordOf e.reportLine).file = e.file.toList := by rw [recordOf, splitOn_reportLine h]; rfl
  have hfields : (recordOf e.reportLine).fields = e.lines.toList.map fun n => (toString n.toNat).toList := by
    rw [recordOf, splitOn_reportLine h]
    rfl
  rw [addLine_of_not_blank s (reportLine_not_blank h), hfile, hfields,
    numbers_toString _ fun n hn => (h.numbers n hn).1, String.ofList_toList,
    ← Selection.insertMany_toList_of_new hnew]
  rfl

theorem addLines_write : ∀ {l : List Entry} {s : Selection}, (∀ e ∈ l, e.Reportable) →
    (s.files ++ l.map (·.file)).Nodup →
    addLines s (lines (l.flatMap fun e => e.reportLine ++ ['\r', '\n'])) = .ok ⟨s.entries ++ l⟩
  | [], s, _, _ => by
    rw [List.append_nil]
    rfl
  | e :: rest, s, h, hnodup => by
    obtain ⟨hfirst, hrest⟩ := List.forall_mem_cons.1 h
    have hnew : e.file ∉ s.files := fun hmem =>
      (List.nodup_append.1 hnodup).2.2 _ hmem _ List.mem_cons_self rfl
    have hlines : lines ((e :: rest).flatMap fun e => e.reportLine ++ ['\r', '\n'])
        = e.reportLine :: lines (rest.flatMap fun e => e.reportLine ++ ['\r', '\n']) := by
      have := inLines_iff.1 (.returned (newline_not_mem_reportLine hfirst)
        (inLines_lines (rest.flatMap fun e => e.reportLine ++ ['\r', '\n'])))
      simpa using this
    rw [hlines, addLines, addLine_reportLine hfirst hnew]
    have hnext : ((⟨s.entries ++ [e]⟩ : Selection).files ++ rest.map (·.file)).Nodup := by
      simpa [Selection.files] using hnodup
    have := addLines_write (s := ⟨s.entries ++ [e]⟩) hrest hnext
    simpa using this

end Report

/-- **Reports and the selections that can be written say the same.**  What a report describes can be written, and what
can be written is read back as it is: the order of its files and the names of them too, blanks and `\r` included. -/
theorem write_roundTrip :
    (∀ (report : String) (s : Selection), selectionOf report = .ok s → s.Reportable) ∧
    ∀ s : Selection, s.Reportable → selectionOf (Report.write s) = .ok s := by
  refine ⟨fun report s h => Selection.reportable_of_selectionOf h, fun s h => selectionOf_eq_ok_iff.2 ?_⟩
  have hread := addLines_write (s := ∅) h.entries h.distinct
  rw [parse, Report.write, String.toList_ofList]
  exact hread

/-- A name with a `\r` at its end and no lines, and two blank names, one of them empty, with lines. -/
theorem write_roundTrip_blank_names :
    let s : Selection := ⟨[⟨"a.c\r", ∅⟩, ⟨"", .ofList [7, 3]⟩, ⟨" \r", .ofList [4294967295]⟩]⟩
    selectionOf "a.c\r\r\n,7\n \r, 4294967295 \n,+3" = .ok s ∧ s.Reportable ∧
      Report.write s = "a.c\r\r\n,3,7\r\n \r,4294967295\r\n" ∧ selectionOf (Report.write s) = .ok s := by
  intro s
  have hread : selectionOf "a.c\r\r\n,7\n \r, 4294967295 \n,+3" = .ok s := by rfl
  have hs := write_roundTrip.1 _ _ hread
  exact ⟨hread, hs, by rfl, write_roundTrip.2 s hs⟩

end SourceSlice
