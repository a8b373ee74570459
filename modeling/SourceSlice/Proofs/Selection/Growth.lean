import SourceSlice.Proofs.Excerpt
import SourceSlice.Proofs.Selection.Algebra
/-!
# Excerpts of larger selections

Whether an excerpt fails, and how, is told by its files alone, and where it does not, every file gives its part by
itself (`excerptEntries_eq`).  The part of a file grows with the set of its lines (`Proper.part_sublist`), and a union
has the sets of both halves, so it shows all that its first half shows and in the same order (`excerpt_union`).
-/
namespace SourceSlice

open Text

/-- The lines of a text with wanted numbers are shown, the numbers ascending and so none of them twice. -/
def Text.Shows (wanted : UInt32 → Prop) (lines : List SourceLine) (shown : List Char) : Prop :=
  ∃ numbers : List Nat, numbers.Pairwise (· < ·) ∧
    (∀ n, n ∈ numbers ↔ 1 ≤ n ∧ n ≤ lines.length ∧ ∃ m, wanted m ∧ m.toNat = n) ∧
    shown = joinLines (numbers.filterMap fun n => lines[n - 1]?)

namespace LineSet

variable {a b : LineSet} {lines : List SourceLine}

theorem excerptOf_sublist (ha : 0 ∉ a) (hb : 0 ∉ b) (h : ∀ n ∈ a, n ∈ b) (lines : List SourceLine) :
    (excerptOf a lines).Sublist (excerptOf b lines) := by
  rw [excerptOf_eq ha, excerptOf_eq hb]
  have hpick : (a.pick lines).Sublist (b.pick lines) := by
    refine (List.monotone_filter_right _ fun line hline => ?_).map _
    simp only [decide_eq_true_eq, List.mem_map] at hline ⊢
    exact hline.imp fun n hn => ⟨h n hn.1, hn.2⟩
  exact hpick.flatMap _

theorem shows_excerptOf (ha : 0 ∉ a) (lines : List SourceLine) : Shows (· ∈ a) lines (excerptOf a lines) := by
  let p (line : SourceLine × Nat) : Bool := line.2 ∈ a.toList.map UInt32.toNat
  have hnumbers : ((lines.zipIdx 1).filter p).map (·.2)
      = (List.range' 1 lines.length).filter (· ∈ a.toList.map UInt32.toNat) := by
    rw [← List.zipIdx_map_snd 1 lines, List.filter_map]
    rfl
  refine ⟨((lines.zipIdx 1).filter p).map (·.2), ?_, fun n => ?_, ?_⟩
  · rw [hnumbers]
    exact List.Pairwise.filter _ List.pairwise_lt_range'
  · rw [hnumbers, List.mem_filter, List.mem_range'_1, decide_eq_true_eq, List.mem_map]
    have hrange : 1 ≤ n ∧ n < 1 + lines.length ↔ 1 ≤ n ∧ n ≤ lines.length := by omega
    rw [hrange, and_assoc]
    rfl
  · have hlines : ((lines.zipIdx 1).filter p).filterMap (fun line => lines[line.2 - 1]?)
        = ((lines.zipIdx 1).filter p).map (·.1) := by
      rw [← List.filterMap_eq_map]
      refine List.filterMap_congr fun line hline => ?_
      obtain ⟨hle, hlt, hget⟩ := List.mem_zipIdx (List.mem_filter.1 hline).1
      have hbound : line.2 - 1 < lines.length := by omega
      simp [hget, hbound]
    rw [excerptOf_eq ha, List.filterMap_map]
    exact congrArg joinLines hlines.symm

end LineSet

namespace FileSystem

variable {files : FileSystem} {file text : String}

def fault? (files : FileSystem) (file : String) : Option SliceError :=
  if file = "" then none else match files.readSource ⟨file⟩ with
    | .ok _ => none
    | .error error => some error

def linesOf (files : FileSystem) (file : String) : List SourceLine :=
  match files.readSource ⟨file⟩ with
  | .ok text => sourceLines text.toList
  | .error _ => []

theorem exists_read_of_fault?_none (hname : file ≠ "") (h : files.fault? file = none) :
    ∃ text : String, files.read ⟨file⟩ = .ok text.toUTF8 ∧ InLines text.toList (files.linesOf file) := by
  by_cases hreadable : files.Readable ⟨file⟩
  · obtain ⟨text, hread⟩ := hreadable
    exact ⟨text, hread, inLines_iff.2 (by rw [linesOf, readSource_of_read hread])⟩
  · obtain ⟨fault, hsource, -⟩ := readSource_of_not_readable hreadable
    rw [fault?, if_neg hname, hsource] at h
    cases h

end FileSystem

/-- **What excerpts come to**: the first fault of the files, or the part of each entry with a name. -/
theorem excerptEntries_eq (files : FileSystem) : ∀ entries : List Entry,
    excerptEntries files entries = match (entries.map (·.file)).findSome? files.fault? with
      | some error => .error error
      | none => .ok ((entries.filter (·.file ≠ "")).flatMap fun e => excerptOf e.lines (files.linesOf e.file))
  | [] => rfl
  | e :: rest => by
    have ih := excerptEntries_eq files rest
    rw [excerptEntries, ih, List.map_cons, List.findSome?_cons, Entry.excerpt, FileSystem.fault?]
    by_cases hname : e.file = ""
    · rw [if_pos hname, if_pos hname, List.filter_cons_of_neg (by simpa using hname)]
      cases (rest.map (·.file)).findSome? files.fault? <;> rfl
    · rw [if_neg hname, if_neg hname, List.filter_cons_of_pos (by simpa using hname), List.flatMap_cons]
      cases hsource : files.readSource ⟨e.file⟩ with
      | error error => rfl
      | ok text =>
        rw [FileSystem.linesOf, hsource]
        cases (rest.map (·.file)).findSome? files.fault? <;> rfl

namespace Selection

variable {files : FileSystem} {s t : Selection} {file : String} {error : SliceError}

theorem excerpt_eq_error_iff : s.excerpt files = .error error ↔ s.files.findSome? files.fault? = some error := by
  rw [excerpt, excerptEntries_eq]
  change _ ↔ (s.entries.map (·.file)).findSome? files.fault? = some error
  cases (s.entries.map (·.file)).findSome? files.fault? <;> simp [Except.map]

theorem exists_excerpt_iff : (∃ text, s.excerpt files = .ok text) ↔ ∀ file ∈ s.files, files.fault? file = none := by
  rw [← List.findSome?_eq_none_iff, excerpt, excerptEntries_eq]
  change _ ↔ (s.entries.map (·.file)).findSome? files.fault? = none
  cases (s.entries.map (·.file)).findSome? files.fault? <;> simp [Except.map]

def part (files : FileSystem) (s : Selection) (file : String) : List Char :=
  excerptOf ((s.linesOf? file).getD ∅) (files.linesOf file)

/-- **Where each file is named once, an excerpt is the parts of the files**, in the order of their names. -/
theorem Distinct.excerpt_eq (hs : s.Distinct) (h : ∀ file ∈ s.files, files.fault? file = none) :
    s.excerpt files = .ok (String.ofList ((s.files.filter (· ≠ "")).flatMap (s.part files))) := by
  have hentries : (s.entries.filter (·.file ≠ "")).flatMap (fun e => excerptOf e.lines (files.linesOf e.file))
      = (s.files.filter (· ≠ "")).flatMap (s.part files) := by
    rw [Selection.files, List.filter_map, List.flatMap_map]
    refine List.flatMap_congr fun e he => ?_
    rw [part, hs.linesOf?_eq_some (List.mem_filter.1 he).1, Option.getD_some]
  have hnone : (s.entries.map (·.file)).findSome? files.fault? = none := List.findSome?_eq_none_iff.2 h
  rw [excerpt, excerptEntries_eq, hnone, ← hentries]
  rfl

/-- A selection that names each file once and has no line with the number zero, which no line has. -/
structure Proper (s : Selection) : Prop where
  distinct : s.Distinct
  positive : ∀ e ∈ s.entries, 0 ∉ e.lines

theorem Proper.zero_not_mem (h : s.Proper) (file : String) : 0 ∉ (s.linesOf? file).getD ∅ := by
  rw [mem_getD_linesOf?, h.distinct.contains_iff_mem]
  rintro ⟨e, he, -, hzero⟩
  exact h.positive e he hzero

theorem Proper.union (hs : s.Proper) (ht : t.Proper) : (s.union t).Proper where
  distinct := hs.distinct.union t
  positive e he hzero := by
    have hcontains : (s.union t).contains e.file 0 = true :=
      (hs.distinct.union t).contains_iff_mem.2 ⟨e, he, rfl, hzero⟩
    rcases ht.distinct.contains_union.1 hcontains with h | h
    · exact hs.zero_not_mem e.file (mem_getD_linesOf?.2 h)
    · exact ht.zero_not_mem e.file (mem_getD_linesOf?.2 h)

/-- **The part of a file grows with its lines.** -/
theorem Proper.part_sublist (hs : s.Proper) (ht : t.Proper)
    (h : ∀ line, s.contains file line = true → t.contains file line = true) :
    (s.part files file).Sublist (t.part files file) :=
  LineSet.excerptOf_sublist (hs.zero_not_mem file) (ht.zero_not_mem file)
    (fun n hn => mem_getD_linesOf?.2 (h n (mem_getD_linesOf?.1 hn))) _

theorem Proper.shows_part (hs : s.Proper) (files : FileSystem) (file : String) :
    Shows (fun n => s.contains file n = true) (files.linesOf file) (s.part files file) := by
  have hshows := LineSet.shows_excerptOf (hs.zero_not_mem file) (files.linesOf file)
  simp only [mem_getD_linesOf?] at hshows
  exact hshows

theorem files_union_of_distinct (s : Selection) (ht : t.Distinct) :
    (s.union t).files = s.files ++ t.files.filter (· ∉ s.files) := by
  rw [(joins_union s t).files, eraseDups_of_nodup (List.Nodup.filter _ ht)]

theorem exists_excerpt_union_iff : (∃ whole, (s.union t).excerpt files = .ok whole) ↔
    (∃ text, s.excerpt files = .ok text) ∧ ∃ text, t.excerpt files = .ok text := by
  simp only [exists_excerpt_iff, mem_files_union]
  exact ⟨fun h => ⟨fun file hfile => h file (.inl hfile), fun file hfile => h file (.inr hfile)⟩,
    fun h file => Or.rec (h.1 file) (h.2 file)⟩

theorem excerpt_sublist_union (hs : s.Proper) (ht : t.Proper) {text whole : String} (htext : s.excerpt files = .ok text)
    (hwhole : (s.union t).excerpt files = .ok whole) : text.toList.Sublist whole.toList := by
  have hreadable := exists_excerpt_iff.1 ⟨text, htext⟩
  have hreadable' := exists_excerpt_iff.1 ⟨whole, hwhole⟩
  rw [hs.distinct.excerpt_eq hreadable] at htext
  rw [(hs.union ht).distinct.excerpt_eq hreadable', files_union_of_distinct s ht.distinct] at hwhole
  cases htext; cases hwhole
  simp only [String.toList_ofList, List.filter_append, List.flatMap_append]
  have hparts : ((s.files.filter (· ≠ "")).flatMap (s.part files)).Sublist
      ((s.files.filter (· ≠ "")).flatMap ((s.union t).part files)) :=
    List.Sublist.flatMap_right _ fun file _ =>
      hs.part_sublist (hs.union ht) fun line h => ht.distinct.contains_union.2 (.inl h)
  exact hparts.trans (List.sublist_append_left _ _)

theorem excerpt_sublist (hs : s.Proper) (ht : t.Proper) (files : FileSystem) (hfiles : s.files = t.files)
    (hlines : ∀ file line, s.contains file line = true → t.contains file line = true) :
    (∃ error, s.excerpt files = .error error ∧ t.excerpt files = .error error) ∨
      ∃ text more, s.excerpt files = .ok text ∧ t.excerpt files = .ok more ∧ text.toList.Sublist more.toList := by
  cases hfault : s.files.findSome? files.fault? with
  | some error => exact .inl ⟨error, excerpt_eq_error_iff.2 hfault, excerpt_eq_error_iff.2 (hfiles ▸ hfault)⟩
  | none =>
    have hreadable := List.findSome?_eq_none_iff.1 hfault
    refine .inr ⟨_, _, hs.distinct.excerpt_eq hreadable, ht.distinct.excerpt_eq (hfiles ▸ hreadable), ?_⟩
    rw [String.toList_ofList, String.toList_ofList, hfiles]
    exact List.Sublist.flatMap_right _ fun file _ => hs.part_sublist ht (hlines file)

/-- **A union only adds to an excerpt.**  It can be made exactly when those of both halves can.  Then the text of the
first half is a subsequence of it, and of every file, those of the first half before the others, it shows exactly the
lines with a number in one of the two sets, each once.  And two selections of which the second has more lines in the
same files fail with the same error, or the text of the first is a subsequence of that of the second. -/
theorem excerpt_union (files : FileSystem) {s t : Selection} (hs : s.Proper) (ht : t.Proper) :
    ((∃ whole, (s.union t).excerpt files = .ok whole) ↔
      (∃ text, s.excerpt files = .ok text) ∧ ∃ text, t.excerpt files = .ok text) ∧
    (∀ whole, (s.union t).excerpt files = .ok whole →
      (∀ text, s.excerpt files = .ok text → text.toList.Sublist whole.toList) ∧
      ∃ part : String → List Char,
        whole.toList = ((s.files ++ t.files.filter (· ∉ s.files)).filter (· ≠ "")).flatMap part ∧
        ∀ file, file ∈ s.files ∨ file ∈ t.files → file ≠ "" →
          ∃ (text : String) (lines : List SourceLine), files.read ⟨file⟩ = .ok text.toUTF8 ∧ InLines text.toList lines ∧
            Shows (fun n => s.contains file n = true ∨ t.contains file n = true) lines (part file)) ∧
    (s.files = t.files → (∀ file line, s.contains file line = true → t.contains file line = true) →
      (∃ error, s.excerpt files = .error error ∧ t.excerpt files = .error error) ∨
        ∃ text more, s.excerpt files = .ok text ∧ t.excerpt files = .ok more ∧ text.toList.Sublist more.toList) := by
  refine ⟨exists_excerpt_union_iff, fun whole hwhole => ⟨fun text htext => excerpt_sublist_union hs ht htext hwhole,
    (s.union t).part files, ?_, fun file hfile hname => ?_⟩, excerpt_sublist hs ht files⟩
  · rw [(hs.union ht).distinct.excerpt_eq (exists_excerpt_iff.1 ⟨whole, hwhole⟩),
      files_union_of_distinct s ht.distinct] at hwhole
    cases hwhole
    exact String.toList_ofList
  · have hfault := exists_excerpt_iff.1 ⟨whole, hwhole⟩ file (mem_files_union.2 hfile)
    obtain ⟨text, hread, hin⟩ := FileSystem.exists_read_of_fault?_none hname hfault
    refine ⟨text, _, hread, hin, ?_⟩
    have hshows := (hs.union ht).shows_part files file
    simpa only [ht.distinct.contains_union] using hshows

/-- A last line without an end, lines of no file, a file that only the second half names and of which it wants nothing,
and a number past the end; and more lines in the files of the first half. -/
theorem excerpt_union_last_line :
    let files : FileSystem :=
      ⟨[(["a.c"], .file (.bytes "x\ny\r\nz".toUTF8) false), (["b.c"], .file (.bytes "w".toUTF8) false)], []⟩
    let s : Selection := ⟨[⟨"a.c", .ofList [3]⟩, ⟨"", .ofList [2]⟩]⟩
    let t : Selection := ⟨[⟨"b.c", ∅⟩, ⟨"a.c", .ofList [9, 1]⟩]⟩
    let more : Selection := ⟨[⟨"a.c", .ofList [2, 3]⟩, ⟨"", .ofList [2]⟩]⟩
    s.Proper ∧ t.Proper ∧ s.excerpt files = .ok "z" ∧ t.excerpt files = .ok "x\n" ∧
      (∃ whole, (s.union t).excerpt files = .ok whole ∧ "z".toList.Sublist whole.toList) ∧
      ∃ text, more.excerpt files = .ok text ∧ "z".toList.Sublist text.toList := by
  intro files s t more
  have hs : s.Proper := ⟨by decide, by decide⟩
  have ht : t.Proper := ⟨by decide, by decide⟩
  have hmore : more.Proper := ⟨by decide, by decide⟩
  have htext : s.excerpt files = .ok "z" := by rfl
  have htext' : t.excerpt files = .ok "x\n" := by rfl
  have hlines (file : String) (line : UInt32) (h : s.contains file line = true) : more.contains file line = true := by
    obtain ⟨e, he, rfl, hline⟩ := hs.distinct.contains_iff_mem.1 h
    refine hmore.distinct.contains_iff_mem.2 ?_
    rcases List.mem_pair.1 he with rfl | rfl
    · have hthree : line = 3 := by simpa [LineSet.ofList] using hline
      subst hthree
      exact ⟨_, List.mem_cons_self, rfl, by decide⟩
    · exact ⟨_, List.mem_cons_of_mem _ List.mem_cons_self, rfl, hline⟩
  obtain ⟨hiff, hadds, -⟩ := excerpt_union files hs ht
  obtain ⟨whole, hwhole⟩ := hiff.2 ⟨⟨_, htext⟩, _, htext'⟩
  refine ⟨hs, ht, htext, htext', ⟨whole, hwhole, (hadds whole hwhole).1 _ htext⟩, ?_⟩
  rcases (excerpt_union files hs hmore).2.2 rfl hlines with ⟨error, herror, -⟩ | ⟨text, all, hsome, hall, hsub⟩
  · cases htext.symm.trans herror
  · cases htext.symm.trans hsome
    exact ⟨all, hall, hsub⟩

end Selection
end SourceSlice
