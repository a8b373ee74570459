import SourceSlice.Batch.Slicer
import SourceSlice.Proofs.Selection.Distinct
import SourceSlice.Proofs.Work
/-!
# The grammar of reports

What a report may say, apart from how it is read.  Its lines end at `\n`, with one `\r` before it (`InLines`); a line
that is not blank names a file and has fields (`IsRecord`), and a field is good when it is a numeral in range with
blanks around it (`Spells`).  A report is read exactly when all its fields are good, and then its selection has what
the records list; otherwise the first field that is not good is its fault (`selectionOf_exact`).
-/
namespace SourceSlice

namespace Text

/-- **The pieces of a text between separators**: there is at least one. -/
def Pieces (sep : Char) (s : List Char) (pieces : List (List Char)) : Prop :=
  pieces ≠ [] ∧ (∀ piece ∈ pieces, sep ∉ piece) ∧ joinWith sep pieces = s

theorem splitOn_of_not_mem {sep : Char} : ∀ {s : List Char}, sep ∉ s → splitOn sep s = [s]
  | [], _ => rfl
  | c :: rest, h => by
    simp only [List.mem_cons, not_or] at h
    rw [splitOn_cons, splitOn_of_not_mem h.2, consPiece, if_neg (Ne.symm h.1)]

theorem splitOn_joinWith {sep : Char} : ∀ {pieces : List (List Char)}, pieces ≠ [] →
    (∀ piece ∈ pieces, sep ∉ piece) → splitOn sep (joinWith sep pieces) = pieces
  | [piece], _, h => splitOn_of_not_mem (h piece List.mem_cons_self)
  | piece :: next :: rest, _, h => by
    obtain ⟨hfirst, hrest⟩ := List.forall_mem_cons.1 h
    have ih := splitOn_joinWith (List.cons_ne_nil next rest) hrest
    rw [joinWith, splitOn_append_cons, splitOn_of_not_mem hfirst, ih, List.singleton_append]
    simp

theorem pieces_iff {sep : Char} {s : List Char} {pieces : List (List Char)} :
    Pieces sep s pieces ↔ splitOn sep s = pieces := by
  constructor
  · rintro ⟨hne, hsep, rfl⟩
    exact splitOn_joinWith hne hsep
  · rintro rfl
    exact ⟨splitOn_ne_nil sep s, not_mem_of_mem_splitOn sep s, joinWith_splitOn sep s⟩

/-! ## Blanks around a text -/

section

variable {before core after s : List Char}

theorem dropWhile_isBlank_append (hbefore : ∀ c ∈ before, isBlank c = true)
    (hcore : ∀ c, s.head? = some c → isBlank c = false) : (before ++ s).dropWhile isBlank = s := by
  rw [List.dropWhile_append_of_pos hbefore]
  cases s with
  | nil => rfl
  | cons c s => exact List.dropWhile_cons_of_neg (by rw [hcore c rfl]; exact Bool.false_ne_true)

theorem trim_append (hbefore : ∀ c ∈ before, isBlank c = true) (hafter : ∀ c ∈ after, isBlank c = true)
    (hfirst : ∀ c, core.head? = some c → isBlank c = false)
    (hlast : ∀ c, core.getLast? = some c → isBlank c = false) (hne : core ≠ []) :
    trim (before ++ core ++ after) = core := by
  have hstart : (before ++ core ++ after).dropWhile isBlank = core ++ after := by
    rw [List.append_assoc, dropWhile_isBlank_append hbefore]
    intro c hc
    rw [List.head?_append_of_ne_nil _ hne] at hc
    exact hfirst c hc
  have hend : (after.reverse ++ core.reverse).dropWhile isBlank = core.reverse := by
    refine dropWhile_isBlank_append (fun c hc => hafter c (List.mem_reverse.1 hc)) fun c hc => hlast c ?_
    rwa [List.head?_reverse] at hc
  rw [trim, trimEnd, hstart, List.reverse_append, hend, List.reverse_reverse]

theorem exists_blanks_around (s : List Char) : ∃ before after, s = before ++ trim s ++ after ∧
    (∀ c ∈ before, isBlank c = true) ∧ ∀ c ∈ after, isBlank c = true := by
  refine ⟨s.takeWhile isBlank, ((s.dropWhile isBlank).reverse.takeWhile isBlank).reverse, ?_, ?_, ?_⟩
  · have hend := congrArg List.reverse (List.takeWhile_append_dropWhile (p := isBlank) (l := (s.dropWhile isBlank).reverse))
    rw [List.reverse_append, List.reverse_reverse] at hend
    rw [List.append_assoc, trim, trimEnd, hend, List.takeWhile_append_dropWhile]
  · exact fun c hc => List.all_eq_true.1 List.all_takeWhile c hc
  · exact fun c hc => List.all_eq_true.1 List.all_takeWhile c (List.mem_reverse.1 hc)

end

theorem isBlank_eq_false_of_isDigit {c : Char} (h : c.isDigit = true) : isBlank c = false := by
  simp only [Char.isDigit, Bool.and_eq_true, decide_eq_true_eq] at h
  obtain ⟨hlow, hhigh⟩ := h
  have h1 : 48 ≤ c.toNat := hlow
  have h2 : c.toNat ≤ 57 := hhigh
  simp only [isBlank, Bool.or_eq_false_iff, Bool.and_eq_false_iff, beq_eq_false_iff_ne, decide_eq_false_iff_not]
  omega

end Text

open Text

/-! ## Fields -/

theorem LineNumber.toNat_pos (l : LineNumber) : 0 < l.toNat :=
  Nat.pos_of_ne_zero fun h => l.ne_zero (UInt32.toNat_inj.1 h)

namespace Report

/-- **A field that spells a line number**: digits, any number of zeros first, with at most one plus sign before them
and blanks around it. -/
structure Spells (field : List Char) (n : UInt32) : Prop where
  spelled : ∃ before plus digits after, field = before ++ (plus ++ digits) ++ after ∧
    (∀ c ∈ before, isBlank c = true) ∧ (∀ c ∈ after, isBlank c = true) ∧ (plus = [] ∨ plus = ['+']) ∧
    digits ≠ [] ∧ (∀ c ∈ digits, c.isDigit = true) ∧ Nat.ofDigitChars 10 digits 0 = n.toNat
  positive : 0 < n.toNat

theorem dropPlus_append {plus digits : List Char} (hplus : plus = [] ∨ plus = ['+']) (hne : digits ≠ [])
    (hdigits : ∀ c ∈ digits, c.isDigit = true) : LineNumber.dropPlus (plus ++ digits) = digits := by
  rcases hplus with rfl | rfl
  · cases digits with
    | nil => exact absurd rfl hne
    | cons c digits =>
      have hc : c ≠ '+' := by
        rintro rfl
        exact absurd (hdigits _ List.mem_cons_self) (by decide)
      unfold LineNumber.dropPlus
      split
      next heq => exact absurd (List.cons.inj heq).1 hc
      next => rfl
  · rfl

theorem exists_dropPlus (s : List Char) :
    ∃ plus, s = plus ++ LineNumber.dropPlus s ∧ (plus = [] ∨ plus = ['+']) := by
  unfold LineNumber.dropPlus
  split
  next rest => exact ⟨['+'], rfl, .inr rfl⟩
  next => exact ⟨[], rfl, .inl rfl⟩

theorem parseField?_eq_some_iff {field : List Char} {l : LineNumber} :
    LineNumber.parseField? field = some l ↔ Spells field l.val := by
  rw [LineNumber.parseField?_eq, LineNumber.parse?_eq_some_iff]
  constructor
  · rintro ⟨hne, hdigits, hvalue⟩
    obtain ⟨before, after, hfield, hbefore, hafter⟩ := exists_blanks_around field
    obtain ⟨plus, hcore, hplus⟩ := exists_dropPlus (trim field)
    rw [hcore] at hfield
    exact ⟨⟨before, plus, _, after, hfield, hbefore, hafter, hplus, hne, List.all_eq_true.1 hdigits, hvalue⟩, l.toNat_pos⟩
  · rintro ⟨⟨before, plus, digits, after, rfl, hbefore, hafter, hplus, hne, hdigits, hvalue⟩, -⟩
    have hsolid : ∀ c ∈ plus ++ digits, isBlank c = false := by
      intro c hc
      rcases List.mem_append.1 hc with hc | hc
      · rcases hplus with rfl | rfl
        · cases hc
        · rw [List.mem_singleton.1 hc]
          rfl
      · exact isBlank_eq_false_of_isDigit (hdigits c hc)
    have htrim : trim (before ++ (plus ++ digits) ++ after) = plus ++ digits :=
      trim_append hbefore hafter (fun c hc => hsolid c (List.mem_of_head? hc))
        (fun c hc => hsolid c (List.mem_of_getLast? hc)) (List.append_ne_nil_of_right_ne_nil plus hne)
    rw [htrim, dropPlus_append hplus hne hdigits]
    exact ⟨hne, List.all_eq_true.2 hdigits, hvalue⟩

theorem parseField?_eq_none_iff {field : List Char} :
    LineNumber.parseField? field = none ↔ ¬ ∃ n, Spells field n := by
  rw [← not_iff_not, not_not, ← ne_eq, Option.ne_none_iff_exists']
  constructor
  · rintro ⟨l, hl⟩
    exact ⟨l.val, parseField?_eq_some_iff.1 hl⟩
  · rintro ⟨n, hn⟩
    have hne : n ≠ 0 := by
      rintro rfl
      exact absurd hn.positive (by decide)
    exact ⟨⟨n, hne⟩, parseField?_eq_some_iff.2 hn⟩

/-! ## Lines and records -/

/-- **The lines of a report**: each goes up to the next `\n`, without a `\r` that stands right before it.  What stands
after the last one is a line too, and keeps its `\r`. -/
inductive InLines : List Char → List (List Char) → Prop
  | last {line : List Char} : '\n' ∉ line → InLines line [line]
  | line {line rest : List Char} {lines : List (List Char)} : '\n' ∉ line → line.getLast? ≠ some '\r' →
    InLines rest lines → InLines (line ++ '\n' :: rest) (line :: lines)
  | returned {line rest : List Char} {lines : List (List Char)} : '\n' ∉ line →
    InLines rest lines → InLines (line ++ '\r' :: '\n' :: rest) (line :: lines)

theorem lines_append_newline {line rest : List Char} (h : '\n' ∉ line) :
    lines (line ++ '\n' :: rest) = dropReturn line :: lines rest := by
  obtain ⟨piece, pieces, hpieces⟩ := List.exists_cons_of_ne_nil (splitOn_ne_nil '\n' rest)
  rw [lines, splitOn_append_cons, splitOn_of_not_mem h, lines, hpieces]
  rfl

theorem inLines_lines (report : List Char) : InLines report (lines report) := by
  cases hcut : cutAt '\n' report with
  | none =>
    have hmem := cutAt_eq_none_iff.1 hcut
    rw [lines, splitOn_of_not_mem hmem]
    exact .last hmem
  | some parts =>
    obtain ⟨line, rest⟩ := parts
    obtain ⟨hreport, hline⟩ := cutAt_eq_some hcut
    have hlt : rest.length < report.length := by
      rw [hreport, List.length_append, List.length_cons]
      omega
    have hrest := inLines_lines rest
    rw [hreport, lines_append_newline hline, dropReturn]
    by_cases hreturn : line.getLast? = some '\r'
    · obtain ⟨front, rfl⟩ := List.getLast?_eq_some_iff.1 hreturn
      have hfront : '\n' ∉ front := fun h => hline (List.mem_append_left _ h)
      rw [if_pos hreturn, List.dropLast_concat, List.append_assoc]
      exact .returned hfront hrest
    · rw [if_neg hreturn]
      exact .line hline hreturn hrest
termination_by report.length

theorem inLines_iff {report : List Char} {l : List (List Char)} : InLines report l ↔ lines report = l := by
  constructor
  · intro h
    induction h with
    | last hline => rw [lines, splitOn_of_not_mem hline, dropReturns]
    | line hline hreturn _ ih => rw [lines_append_newline hline, dropReturn, if_neg hreturn, ih]
    | @returned line rest lines hline _ ih =>
      have hshort : line ++ '\r' :: '\n' :: rest = (line ++ ['\r']) ++ '\n' :: rest := by simp
      rw [hshort, lines_append_newline (by simpa using hline), ih, dropReturn, if_pos (by simp), List.dropLast_concat]
  · rintro rfl
    exact inLines_lines report

structure Record where
  line : List Char
  file : List Char
  fields : List (List Char)

def Record.Good (r : Record) : Prop := ∀ field ∈ r.fields, ∃ n, Spells field n

/-- **The records of a report** are its lines that hold more than blanks, each in pieces between commas. -/
def Records (report : List Char) (records : List Record) : Prop :=
  ∃ l, InLines report l ∧ records.map (·.line) = l.filter (fun line => !line.all isBlank) ∧
    ∀ r ∈ records, Pieces ',' r.line (r.file :: r.fields)

def recordOf (line : List Char) : Record := ⟨line, (splitOn ',' line).headD [], (splitOn ',' line).tail⟩

theorem pieces_recordOf (line : List Char) : Pieces ',' line ((recordOf line).file :: (recordOf line).fields) := by
  obtain ⟨file, fields, hsplit⟩ := List.exists_cons_of_ne_nil (splitOn_ne_nil ',' line)
  rw [pieces_iff, recordOf, hsplit]
  rfl

theorem recordOf_eq {r : Record} (h : Pieces ',' r.line (r.file :: r.fields)) : recordOf r.line = r := by
  rw [recordOf, pieces_iff.1 h]
  rfl

theorem records_iff {report : List Char} {records : List Record} : Records report records ↔
    records = ((lines report).filter fun line => !line.all isBlank).map recordOf := by
  constructor
  · rintro ⟨l, hl, hlines, hpieces⟩
    rw [inLines_iff.1 hl, ← hlines, List.map_map]
    exact (List.map_congr_left fun r hr => recordOf_eq (hpieces r hr)).trans (List.map_id _) |>.symm
  · rintro rfl
    refine ⟨lines report, inLines_lines report, ?_, fun r hr => ?_⟩
    · rw [List.map_map]
      exact List.map_id _
    · obtain ⟨line, -, rfl⟩ := List.mem_map.1 hr
      exact pieces_recordOf line

/-! ## Reading records -/

theorem numbers_of_good (line : List Char) : ∀ {fields : List (List Char)},
    (∀ field ∈ fields, ∃ n, Spells field n) →
    ∃ ns, numbers line fields = .ok ns ∧ ∀ n, n ∈ ns ↔ ∃ field ∈ fields, Spells field n
  | [], _ => ⟨[], rfl, by simp⟩
  | field :: fields, h => by
    obtain ⟨hfield, hfields⟩ := List.forall_mem_cons.1 h
    obtain ⟨ns, hns, hmem⟩ := numbers_of_good line hfields
    cases hread : LineNumber.parseField? field with
    | none => exact absurd hfield (parseField?_eq_none_iff.1 hread)
    | some l =>
      have hone (n : UInt32) : Spells field n ↔ n = l.val := by
        constructor
        · intro hn
          have hne : n ≠ 0 := by
            rintro rfl
            exact absurd hn.positive (by decide)
          have hsame := hread.symm.trans (parseField?_eq_some_iff (l := ⟨n, hne⟩).2 hn)
          exact (congrArg LineNumber.val (Option.some.inj hsame)).symm
        · rintro rfl
          exact parseField?_eq_some_iff.1 hread
      refine ⟨l.val :: ns, by rw [numbers, hread, hns]; rfl, fun n => ?_⟩
      rw [List.mem_cons, hmem, ← hone]
      simp

theorem numbers_of_not_good (line : List Char) {field : List Char} {after : List (List Char)}
    (hnot : ¬ ∃ n, Spells field n) : ∀ {before : List (List Char)}, (∀ f ∈ before, ∃ n, Spells f n) →
    numbers line (before ++ field :: after) = .error ⟨String.ofList line, String.ofList field⟩
  | [], _ => by rw [List.nil_append, numbers, parseField?_eq_none_iff.2 hnot]
  | f :: before, h => by
    obtain ⟨hfirst, hbefore⟩ := List.forall_mem_cons.1 h
    cases hread : LineNumber.parseField? f with
    | none => exact absurd hfirst (parseField?_eq_none_iff.1 hread)
    | some l => rw [List.cons_append, numbers, hread, numbers_of_not_good line hnot hbefore]; rfl

theorem addLine_of_blank {line : List Char} (s : Selection) (h : line.all isBlank = true) : addLine s line = .ok s := by
  rw [addLine, if_pos (trim_eq_nil_iff.2 (List.all_eq_true.1 h))]

theorem addLine_of_not_blank {line : List Char} (s : Selection) (h : line.all isBlank = false) : addLine s line
    = (numbers line (recordOf line).fields).map (s.insertMany (String.ofList (recordOf line).file)) := by
  have hblank : trim line ≠ [] := fun htrim => by
    rw [List.all_eq_true.2 (trim_eq_nil_iff.1 htrim)] at h
    cases h
  rw [addLine, if_neg hblank, pieces_iff.1 (pieces_recordOf line)]

/-- **A selection says what records list**: their files in the order in which they are named first, each once, and the
numbers that stand after a file on any line. -/
structure Lists (s : Selection) (records : List Record) : Prop where
  distinct : s.Distinct
  files : s.files = (records.map fun r => String.ofList r.file).eraseDups
  contains : ∀ file n, s.contains file n = true ↔
    ∃ r ∈ records, String.ofList r.file = file ∧ ∃ field ∈ r.fields, Spells field n

variable {s : Selection} {records : List Record} {r : Record}

theorem lists_empty : Lists ∅ [] where
  distinct := Selection.distinct_empty
  files := rfl
  contains file n := by
    refine ⟨nofun, ?_⟩
    rintro ⟨r, hr, -⟩
    cases hr

theorem Lists.insertMany (h : Lists s records) {ns : List UInt32}
    (hns : ∀ n, n ∈ ns ↔ ∃ field ∈ r.fields, Spells field n) :
    Lists (s.insertMany (String.ofList r.file) ns) (records ++ [r]) where
  distinct := h.distinct.update _ _
  files := by
    rw [Selection.insertMany, Selection.files_update, h.files, List.map_append, List.map_singleton,
      Selection.eraseDups_concat]
  contains file n := by
    have hold := h.contains file n
    rw [Selection.insertMany, Selection.contains_update]
    by_cases hfile : file = String.ofList r.file
    · subst hfile
      rw [if_pos rfl, LineSet.mem_insertMany, Selection.mem_getD_linesOf?, hold, hns]
      simp only [List.mem_append, List.mem_singleton, or_and_right, exists_or, exists_eq_left, true_and]
      rw [or_comm]
    · rw [if_neg hfile, hold]
      simp only [List.mem_append, List.mem_singleton, or_and_right, exists_or, exists_eq_left, Ne.symm hfile,
        false_and, or_false]

theorem addLines_of_good : ∀ {l : List (List Char)} {s : Selection} {records : List Record}, Lists s records →
    (∀ r ∈ (l.filter fun line => !line.all isBlank).map recordOf, r.Good) → ∃ t, addLines s l = .ok t ∧
      Lists t (records ++ (l.filter fun line => !line.all isBlank).map recordOf)
  | [], s, records, hs, _ => ⟨s, rfl, by simpa using hs⟩
  | line :: rest, s, records, hs, hgood => by
    by_cases hblank : line.all isBlank = true
    · rw [List.filter_cons_of_neg (by simp [hblank])] at hgood ⊢
      rw [addLines, addLine_of_blank s hblank]
      exact addLines_of_good hs hgood
    · rw [List.filter_cons_of_pos (by simp [hblank]), List.map_cons] at hgood ⊢
      obtain ⟨hfirst, hrest⟩ := List.forall_mem_cons.1 hgood
      obtain ⟨ns, hns, hmem⟩ := numbers_of_good line hfirst
      have hstep := addLines_of_good (hs.insertMany hmem) hrest
      rw [List.append_assoc, List.singleton_append] at hstep
      rw [addLines, addLine_of_not_blank s (Bool.eq_false_iff.2 hblank), hns]
      exact hstep

theorem addLines_of_not_good {field : List Char} {pre post : List (List Char)} {after : List Record}
    (hfields : r.fields = pre ++ field :: post) (hpre : ∀ f ∈ pre, ∃ n, Spells f n) (hnot : ¬ ∃ n, Spells field n) :
    ∀ {l : List (List Char)} {s : Selection} {before : List Record},
    (l.filter fun line => !line.all isBlank).map recordOf = before ++ r :: after → (∀ b ∈ before, b.Good) →
    addLines s l = .error ⟨String.ofList r.line, String.ofList field⟩
  | [], _, before, hl, _ => absurd hl.symm (List.append_ne_nil_of_right_ne_nil _ (List.cons_ne_nil _ _))
  | line :: rest, s, before, hl, hbefore => by
    by_cases hblank : line.all isBlank = true
    · rw [List.filter_cons_of_neg (by simp [hblank])] at hl
      rw [addLines, addLine_of_blank s hblank]
      exact addLines_of_not_good hfields hpre hnot hl hbefore
    · rw [List.filter_cons_of_pos (by simp [hblank]), List.map_cons] at hl
      rw [addLines, addLine_of_not_blank s (Bool.eq_false_iff.2 hblank)]
      cases before with
      | nil =>
        obtain ⟨rfl, -⟩ := List.cons.inj hl
        rw [hfields, numbers_of_not_good line hnot hpre]
        rfl
      | cons b before =>
        obtain ⟨rfl, hrest⟩ := List.cons.inj hl
        obtain ⟨hfirst, hbefore⟩ := List.forall_mem_cons.1 hbefore
        obtain ⟨ns, hns, -⟩ := numbers_of_good line hfirst
        rw [hns]
        exact addLines_of_not_good hfields hpre hnot hrest hbefore

end Report

open Report

theorem Report.Lists.mem_lines {s : Selection} {records : List Record} (h : Lists s records) {e : Entry}
    (he : e ∈ s.entries) (n : UInt32) : n ∈ e.lines ↔
      ∃ r ∈ records, String.ofList r.file = e.file ∧ ∃ field ∈ r.fields, Spells field n := by
  rw [← h.contains, Selection.contains_iff, h.distinct.linesOf?_eq_some he]
  simp

/-- **A report is read exactly when it is in the grammar.**  It has its records and no others.  When all their fields
spell line numbers, the selection has an entry for each file that a record names, in the order of their first records,
and in it the numbers of all its records; otherwise the fault is the first field that spells none, with its line. -/
theorem selectionOf_exact (report : String) : ∃ records, (∀ other, Records report.toList other ↔ other = records) ∧
    ((∃ s, selectionOf report = .ok s) ↔ ∀ r ∈ records, r.Good) ∧
    ((∀ r ∈ records, r.Good) → ∃ s, selectionOf report = .ok s ∧
      s.files = (records.map fun r => String.ofList r.file).eraseDups ∧ s.files.Nodup ∧
      ∀ e ∈ s.entries, ∀ n, n ∈ e.lines ↔
        ∃ r ∈ records, String.ofList r.file = e.file ∧ ∃ field ∈ r.fields, Spells field n) ∧
    (¬ (∀ r ∈ records, r.Good) → ∃ before r after pre field post,
      records = before ++ r :: after ∧ (∀ b ∈ before, b.Good) ∧
      r.fields = pre ++ field :: post ∧ (∀ f ∈ pre, ∃ n, Spells f n) ∧ (¬ ∃ n, Spells field n) ∧
      selectionOf report = .error (.malformedReport ⟨String.ofList r.line, String.ofList field⟩)) := by
  let records := ((lines report.toList).filter fun line => !line.all isBlank).map recordOf
  have hread : (∀ r ∈ records, r.Good) → ∃ s, selectionOf report = .ok s ∧ Lists s records := fun hgood => by
    obtain ⟨s, hs, hlists⟩ := addLines_of_good lists_empty hgood
    exact ⟨s, by rw [selectionOf, parse, hs]; rfl, hlists⟩
  have hfault : ¬ (∀ r ∈ records, r.Good) → ∃ before r after pre field post,
      records = before ++ r :: after ∧ (∀ b ∈ before, b.Good) ∧
      r.fields = pre ++ field :: post ∧ (∀ f ∈ pre, ∃ n, Spells f n) ∧ (¬ ∃ n, Spells field n) ∧
      selectionOf report = .error (.malformedReport ⟨String.ofList r.line, String.ofList field⟩) := fun hnot => by
    obtain ⟨before, r, after, hrecords, hbefore, hr⟩ := Work.exists_first_not hnot
    obtain ⟨pre, field, post, hfields, hpre, hfield⟩ := Work.exists_first_not hr
    refine ⟨before, r, after, pre, field, post, hrecords, hbefore, hfields, hpre, hfield, ?_⟩
    rw [selectionOf, parse, addLines_of_not_good hfields hpre hfield hrecords hbefore]
    rfl
  refine ⟨records, fun other => records_iff, ⟨fun ⟨s, hs⟩ => ?_, fun hgood => ?_⟩, fun hgood => ?_, hfault⟩
  · by_contra hnot
    obtain ⟨_, _, _, _, _, _, -, -, -, -, -, herror⟩ := hfault hnot
    rw [hs] at herror
    cases herror
  · obtain ⟨s, hs, -⟩ := hread hgood
    exact ⟨s, hs⟩
  · obtain ⟨s, hs, hlists⟩ := hread hgood
    exact ⟨s, hs, hlists.files, hlists.distinct, fun e he n => hlists.mem_lines he n⟩

example : selectionOf "b.c,+01\r\n\u3000\n a.c\nb.c, 4294967295\r"
    = .ok ⟨[⟨"b.c", .ofList [1, 4294967295]⟩, ⟨" a.c", ∅⟩]⟩ := by rfl

example : selectionOf "a.c,1\na.c,2, 0 ,++3\r\n" = .error (.malformedReport ⟨"a.c,2, 0 ,++3", " 0 "⟩) := by rfl

end SourceSlice
