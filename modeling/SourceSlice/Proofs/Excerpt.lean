import Mathlib.Data.List.Basic
import SourceSlice.Excerpt
import SourceSlice.Proofs.Work
/-!
# Excerpts are the selected lines

The reader of a file's lines counts them in 32 bits, looks the number up among those still ahead and ends with the
last line that it owes.  What it shows are the lines whose place is in the set, the places counted without a bound
(`excerptOf_eq`): while a line is owed that is still ahead, the count has not stopped yet.

`InLines` says what the lines of a text are, apart from how they are read; `excerpt_exact` puts all of it together.
-/
namespace SourceSlice

namespace Text

def Unbroken (line : List Char) : Prop := ∀ c ∈ line, c ≠ '\r' ∧ c ≠ '\n'

/-- What ends a line before the rest of a text: a `\r` before a `\n` does not end the line by itself. -/
def LineEnd (ending rest : List Char) : Prop :=
  ending = ['\r', '\n'] ∨ ending = ['\n'] ∨ ending = ['\r'] ∧ rest.head? ≠ some '\n'

/-- **The lines of a text**: each goes up to the next line end, and what stands after the last one is a line too,
unless it is empty. -/
inductive InLines : List Char → List SourceLine → Prop
  | empty : InLines [] []
  | unended {line : List Char} : line ≠ [] → Unbroken line → InLines line [⟨line, false⟩]
  | ended {line ending rest : List Char} {lines : List SourceLine} : Unbroken line → LineEnd ending rest →
    InLines rest lines → InLines (line ++ ending ++ rest) (⟨line, true⟩ :: lines)

theorem inLines_linesFrom (seen s : List Char) (h : Unbroken seen.reverse) :
    InLines (seen.reverse ++ s) (linesFrom seen s) := by
  have hnil : Unbroken ([] : List Char).reverse := nofun
  fun_induction linesFrom seen s with
  | case1 seen hseen =>
    rw [List.isEmpty_iff.1 hseen]
    exact .empty
  | case2 seen hseen =>
    have hne : seen.reverse ≠ [] := fun e => hseen (List.isEmpty_iff.2 (List.reverse_eq_nil_iff.1 e))
    rw [List.append_nil]
    exact .unended hne h
  | case3 seen rest ih =>
    have := InLines.ended h (.inl rfl) (ih hnil)
    simpa using this
  | case4 seen c rest hne hc ih =>
    have hend : LineEnd [c] rest := by
      rcases hc with rfl | rfl
      · refine .inr (.inr ⟨rfl, fun hhead => ?_⟩)
        obtain ⟨tail, rfl⟩ := List.head?_eq_some_iff.1 hhead
        exact hne tail rfl rfl
      · exact .inr (.inl rfl)
    have := InLines.ended h hend (ih hnil)
    simpa using this
  | case5 seen c rest hne hc ih =>
    have hcons : Unbroken (c :: seen).reverse := by
      intro d hd
      rw [List.reverse_cons, List.mem_append, List.mem_singleton] at hd
      rcases hd with hd | rfl
      · exact h d hd
      · exact not_or.1 hc
    simpa using ih hcons

theorem linesFrom_unbroken {line : List Char} : ∀ (seen s : List Char), Unbroken line →
    linesFrom seen (line ++ s) = linesFrom (line.reverse ++ seen) s := by
  induction line with
  | nil => exact fun _ _ _ => rfl
  | cons c line ih =>
    intro seen s h
    obtain ⟨hc, hline⟩ := List.forall_mem_cons.1 h
    have hstep : linesFrom seen (c :: (line ++ s)) = linesFrom (c :: seen) (line ++ s) := by
      rw [linesFrom.eq_3 _ _ _ fun _ hr _ => hc.1 hr, if_neg (not_or.2 hc)]
    rw [List.cons_append, hstep, ih _ _ hline, List.reverse_cons, List.append_assoc, List.singleton_append]

theorem linesFrom_lineEnd {ending rest : List Char} (seen : List Char) (h : LineEnd ending rest) :
    linesFrom seen (ending ++ rest) = ⟨seen.reverse, true⟩ :: linesFrom [] rest := by
  rcases h with rfl | rfl | ⟨rfl, hrest⟩
  · rfl
  · rw [List.singleton_append, linesFrom.eq_3 _ _ _ (by simp), if_pos (.inr rfl)]
  · have hne (tail : List Char) : rest ≠ '\n' :: tail := fun e => hrest (by rw [e, List.head?_cons])
    rw [List.singleton_append, linesFrom.eq_3 _ _ _ fun tail _ e => hne tail e, if_pos (.inl rfl)]

theorem inLines_iff {text : List Char} {lines : List SourceLine} : InLines text lines ↔ sourceLines text = lines := by
  constructor
  · intro h
    induction h with
    | empty => rfl
    | @unended line hne hline =>
      have := linesFrom_unbroken [] [] hline
      rw [List.append_nil, List.append_nil] at this
      rw [sourceLines, this, linesFrom, List.reverse_reverse, if_neg (by simpa using hne)]
    | @ended line ending rest lines hline hend _ ih =>
      rw [sourceLines, List.append_assoc, linesFrom_unbroken [] _ hline, linesFrom_lineEnd _ hend]
      rw [List.append_nil, List.reverse_reverse, ← sourceLines, ih]
  · rintro rfl
    exact inLines_linesFrom [] text nofun

end Text

open Text

/-! ## The loop over the lines of a file -/

def linesAt (numbers : List UInt32) (position : Nat) (lines : List SourceLine) : List SourceLine :=
  ((lines.zipIdx position).filter fun line => line.2 ∈ numbers.map UInt32.toNat).map (·.1)

/-- **The lines of a set**: those whose place in the file, counted from one, is in it. -/
def LineSet.pick (wanted : LineSet) (lines : List SourceLine) : List SourceLine := linesAt wanted.toList 1 lines

section

variable {numbers : List UInt32} {position : Nat} {line : SourceLine} {lines : List SourceLine}

theorem linesAt_cons (h : position ∈ numbers.map UInt32.toNat) :
    linesAt numbers position (line :: lines) = line :: linesAt numbers (position + 1) lines := by
  simp only [linesAt, List.zipIdx_cons]
  rw [List.filter_cons_of_pos (by simpa using h), List.map_cons]

theorem linesAt_cons_of_not_mem (h : position ∉ numbers.map UInt32.toNat) :
    linesAt numbers position (line :: lines) = linesAt numbers (position + 1) lines := by
  simp only [linesAt, List.zipIdx_cons]
  rw [List.filter_cons_of_neg (by simpa using h)]

theorem linesAt_number_lt {n : UInt32} (h : n.toNat < position) :
    linesAt (n :: numbers) position lines = linesAt numbers position lines := by
  unfold linesAt
  refine congrArg (List.map Prod.fst) (List.filter_congr fun x hx => ?_)
  have hle := (List.mem_zipIdx hx).1
  have hne : x.2 ≠ n.toNat := by omega
  simp [hne]

theorem linesAt_nil : linesAt [] position lines = [] := by simp [linesAt]

end

theorem toNat_lineNumberAt (position : Nat) : (lineNumberAt position).toNat = min position LineNumber.greatest := by
  have hlt : min position LineNumber.greatest < 2 ^ 32 := by simp only [LineNumber.greatest]; omega
  rw [lineNumberAt, UInt32.toNat_ofNat_of_lt' hlt]

theorem dropWhile_lineNumberAt {ahead : List UInt32} {position : Nat} (h : ∀ m ∈ ahead, position ≤ m.toNat) :
    ahead.dropWhile (· < lineNumberAt position) = ahead := by
  cases ahead with
  | nil => rfl
  | cons m ahead =>
    have hm := h m List.mem_cons_self
    have hcount := toNat_lineNumberAt position
    refine List.dropWhile_cons_of_neg ?_
    simp only [decide_eq_true_eq, UInt32.lt_iff_toNat_lt]
    omega

/-- **The loop shows the lines whose places are ahead**, while it owes as many lines as are ahead of it.  When the count
stops at the greatest number, that number is the last one ahead or nothing is, so the loop ends before it would show a
line by a place that is not its own. -/
theorem excerptFrom_eq {live : List UInt32} : ∀ {lines : List SourceLine} {ahead : List UInt32} {position : Nat},
    live.Pairwise (· < ·) → (∀ m ∈ live, position ≤ m.toNat) →
    ahead.dropWhile (· < lineNumberAt position) = live →
    excerptFrom ahead position live.length lines = joinLines (linesAt live position lines) := by
  intro lines
  induction lines generalizing live with
  | nil => exact fun _ _ _ => rfl
  | cons line rest ih =>
    intro ahead position hsorted hlive hahead
    have hcount := toNat_lineNumberAt position
    simp only [excerptFrom, hahead]
    by_cases hhead : live.head? = some (lineNumberAt position)
    · obtain ⟨tail, rfl⟩ := List.head?_eq_some_iff.1 hhead
      obtain ⟨hless, htail⟩ := List.pairwise_cons.1 hsorted
      have hplace : (lineNumberAt position).toNat = position := by
        have := hlive _ List.mem_cons_self
        omega
      have hnext : ∀ m ∈ tail, position + 1 ≤ m.toNat := fun m hm => by
        have := UInt32.lt_iff_toNat_lt.1 (hless m hm)
        omega
      rw [if_pos hhead, linesAt_cons (List.mem_map.2 ⟨_, List.mem_cons_self, hplace⟩), linesAt_number_lt (by omega)]
      rw [joinLines, List.flatMap_cons]
      refine congrArg (line.shown ++ ·) ?_
      cases tail with
      | nil => rw [linesAt_nil]; rfl
      | cons m tail =>
        -- A greater number is still ahead, so the count has not stopped: it goes on to the next place.
        have hm := hnext m List.mem_cons_self
        have hgreatest := m.toNat_lt
        have hdrop : (lineNumberAt position :: m :: tail).dropWhile (· < lineNumberAt (position + 1)) = m :: tail := by
          have hstep := toNat_lineNumberAt (position + 1)
          have hlt : lineNumberAt position < lineNumberAt (position + 1) := by
            simp only [LineNumber.greatest] at hstep
            exact UInt32.lt_iff_toNat_lt.2 (by omega)
          rw [List.dropWhile_cons_of_pos (by simpa using hlt), dropWhile_lineNumberAt hnext]
        rw [if_neg (by simp), List.length_cons, Nat.add_sub_cancel]
        exact ih htail hnext hdrop
    · have hplace : position ∉ live.map UInt32.toNat := fun hmem => by
        obtain ⟨m, hm, hmp⟩ := List.mem_map.1 hmem
        have hmn : m = lineNumberAt position := by
          have := m.toNat_lt
          simp only [LineNumber.greatest] at hcount
          exact UInt32.toNat_inj.1 (by omega)
        have hfront := (head?_dropWhile_lt hsorted).2 (hmn ▸ hm)
        rw [dropWhile_lineNumberAt hlive] at hfront
        exact hhead hfront
      have hnext : ∀ m ∈ live, position + 1 ≤ m.toNat := fun m hm => by
        have hle := hlive m hm
        have hne : m.toNat ≠ position := fun e => hplace (List.mem_map.2 ⟨m, hm, e⟩)
        omega
      rw [if_neg hhead, linesAt_cons_of_not_mem hplace]
      exact ih hsorted hnext (dropWhile_lineNumberAt hnext)

/-- **The lines of a set are shown**, each once and from the top, whatever the length of the file. -/
theorem excerptOf_eq {wanted : LineSet} (h : 0 ∉ wanted) (lines : List SourceLine) :
    excerptOf wanted lines = joinLines (wanted.pick lines) := by
  have hpos : ∀ m ∈ wanted.toList, 1 ≤ m.toNat := fun m hm => by
    have hne : m.toNat ≠ 0 := fun e => h (UInt32.toNat_inj.1 (show m.toNat = (0 : UInt32).toNat from e) ▸ hm)
    omega
  exact excerptFrom_eq wanted.sorted hpos (dropWhile_lineNumberAt hpos)

/-! ## Files -/

def FileSystem.Readable (files : FileSystem) (p : Path) : Prop := ∃ text : String, files.read p = .ok text.toUTF8

/-- Why a file cannot be read as a text: it cannot be read at all, or its bytes are none. -/
inductive FileSystem.Refuses (files : FileSystem) (p : Path) : FileFault → Prop
  | unread {fault : FileFault} : files.read p = .error fault → Refuses files p fault
  | notText {bytes : ByteArray} {fault : Utf8.Fault} : files.read p = .ok bytes → Utf8.decode bytes = .error fault →
    Refuses files p (.notUtf8 fault)

section

variable {files : FileSystem} {p : Path} {e : Entry} {entries : List Entry}

theorem Utf8.eq_toUTF8_of_decode {bytes : ByteArray} {text : String} (h : Utf8.decode bytes = .ok text) :
    bytes = text.toUTF8 := by
  unfold Utf8.decode at h
  split at h
  next t ht =>
    cases h
    unfold String.fromUTF8? at ht
    split at ht
    · cases ht; rfl
    · cases ht
  next => cases h

theorem FileSystem.readSource_of_read {text : String} (h : files.read p = .ok text.toUTF8) :
    files.readSource p = .ok text := by
  rw [readSource, h]
  dsimp only
  rw [Utf8.decode_toUTF8]

theorem FileSystem.readSource_of_not_readable (h : ¬ files.Readable p) :
    ∃ fault, files.readSource p = .error (.sourceUnavailable p fault) ∧ files.Refuses p fault := by
  cases hread : files.read p with
  | error fault => exact ⟨fault, by rw [readSource, hread], .unread hread⟩
  | ok bytes =>
    cases hdecode : Utf8.decode bytes with
    | ok text => exact absurd ⟨text, by rw [hread, Utf8.eq_toUTF8_of_decode hdecode]⟩ h
    | error fault =>
      refine ⟨.notUtf8 fault, ?_, .notText hread hdecode⟩
      rw [readSource, hread]
      dsimp only
      rw [hdecode]

theorem FileSystem.Refuses.not_readable {fault : FileFault} (h : files.Refuses p fault) : ¬ files.Readable p := by
  rintro ⟨text, hread⟩
  cases h with
  | unread hfault => rw [hread] at hfault; cases hfault
  | notText hbytes hdecode =>
    cases hread.symm.trans hbytes
    rw [Utf8.decode_toUTF8] at hdecode
    cases hdecode

theorem Entry.excerpt_of_readable {text : String} {lines : List SourceLine} (hzero : 0 ∉ e.lines) (hname : e.file ≠ "")
    (hread : files.read ⟨e.file⟩ = .ok text.toUTF8) (hlines : InLines text.toList lines) :
    e.excerpt files = .ok (joinLines (e.lines.pick lines)) := by
  rw [Entry.excerpt, if_neg hname, FileSystem.readSource_of_read hread]
  dsimp only
  rw [inLines_iff.1 hlines, excerptOf_eq hzero]

theorem excerptEntries_eq_ok {text : Entry → List Char} : ∀ {entries : List Entry},
    (∀ e ∈ entries, e.file ≠ "" → e.excerpt files = .ok (text e)) →
    excerptEntries files entries = .ok ((entries.filter (·.file ≠ "")).flatMap text)
  | [], _ => rfl
  | e :: rest, h => by
    obtain ⟨hfirst, hrest⟩ := List.forall_mem_cons.1 h
    have ih := excerptEntries_eq_ok hrest
    by_cases hname : e.file = ""
    · have hempty : e.excerpt files = .ok [] := by rw [Entry.excerpt, if_pos hname]
      rw [excerptEntries, hempty, ih, List.filter_cons_of_neg (by simpa using hname)]
      rfl
    · rw [excerptEntries, hfirst hname, ih, List.filter_cons_of_pos (by simpa using hname)]
      rfl

theorem excerptEntries_eq_error {error : SliceError} (herror : e.excerpt files = .error error) :
    ∀ {before : List Entry} {after : List Entry}, (∀ b ∈ before, ∃ text, b.excerpt files = .ok text) →
    excerptEntries files (before ++ e :: after) = .error error
  | [], _, _ => by rw [List.nil_append, excerptEntries, herror]
  | b :: before, after, h => by
    obtain ⟨⟨text, hfirst⟩, hrest⟩ := List.forall_mem_cons.1 h
    rw [List.cons_append, excerptEntries, hfirst, excerptEntries_eq_error herror hrest]

theorem excerptEntries_congr {a b : FileSystem} : ∀ {entries : List Entry},
    (∀ e ∈ entries, e.excerpt b = e.excerpt a) → excerptEntries b entries = excerptEntries a entries
  | [], _ => rfl
  | e :: rest, h => by
    obtain ⟨hfirst, hrest⟩ := List.forall_mem_cons.1 h
    rw [excerptEntries, excerptEntries, hfirst, excerptEntries_congr hrest]

theorem Entry.exists_excerpt (h : e.file ≠ "" → files.Readable ⟨e.file⟩) : ∃ text, e.excerpt files = .ok text := by
  by_cases hname : e.file = ""
  · exact ⟨[], by rw [Entry.excerpt, if_pos hname]⟩
  · obtain ⟨text, hread⟩ := h hname
    exact ⟨_, by rw [Entry.excerpt, if_neg hname, FileSystem.readSource_of_read hread]⟩

end

/-- **The excerpt of a selection is exactly its lines**: when every file with a name can be read, it is the lines of each
entry's set, entry by entry; otherwise the first file that cannot be read is named, also when nothing of it is selected.
No line number of a selection may be zero, the number that no line has. -/
theorem Selection.excerpt_exact (files : FileSystem) (s : Selection) (hzero : ∀ e ∈ s.entries, 0 ∉ e.lines) :
    (∀ lines : String → List SourceLine,
      (∀ e ∈ s.entries, e.file ≠ "" →
        ∃ text : String, files.read ⟨e.file⟩ = .ok text.toUTF8 ∧ InLines text.toList (lines e.file)) →
      s.excerpt files
        = .ok (String.ofList (s.attributed.entries.flatMap fun e => joinLines (e.lines.pick (lines e.file))))) ∧
    (¬ (∀ e ∈ s.entries, e.file ≠ "" → files.Readable ⟨e.file⟩) →
      ∃ before e after fault, s.entries = before ++ e :: after ∧
        (∀ b ∈ before, b.file ≠ "" → files.Readable ⟨b.file⟩) ∧ e.file ≠ "" ∧ files.Refuses ⟨e.file⟩ fault ∧
        s.excerpt files = .error (.sourceUnavailable ⟨e.file⟩ fault)) := by
  refine ⟨fun lines hlines => ?_, fun hnot => ?_⟩
  · have hentries := excerptEntries_eq_ok fun e he hname => by
      obtain ⟨text, hread, hin⟩ := hlines e he hname
      exact Entry.excerpt_of_readable (hzero e he) hname hread hin
    rw [Selection.excerpt, hentries]
    rfl
  · obtain ⟨before, e, after, hsplit, hbefore, hfirst⟩ := Work.exists_first_not hnot
    obtain ⟨hname, hunread⟩ := Classical.not_imp.1 hfirst
    obtain ⟨fault, hsource, hrefuses⟩ := FileSystem.readSource_of_not_readable hunread
    have herror : e.excerpt files = .error (.sourceUnavailable ⟨e.file⟩ fault) := by
      rw [Entry.excerpt, if_neg hname, hsource]
    refine ⟨before, e, after, fault, hsplit, hbefore, hname, hrefuses, ?_⟩
    rw [Selection.excerpt, hsplit, excerptEntries_eq_error herror fun b hb => Entry.exists_excerpt (hbefore b hb)]
    rfl

/-- Three line ends, a line past the end, a file named twice, and a file that is not there. -/
theorem Selection.excerpt_exact_three_endings :
    let files : FileSystem := ⟨[(["a.c"], .file (.bytes "x\r\ny\rz".toUTF8) false)], []⟩
    let first : Entry := ⟨"a.c", .ofList [9, 3, 1]⟩
    (⟨[first, ⟨"", .ofList [2]⟩, ⟨"a.c", .ofList [2]⟩]⟩ : Selection).excerpt files = .ok "x\nzy\n" ∧
    ∃ fault, (⟨[first, ⟨"b.c", ∅⟩]⟩ : Selection).excerpt files = .error (.sourceUnavailable ⟨"b.c"⟩ fault) := by
  intro files first
  have hread : files.read ⟨"a.c"⟩ = .ok "x\r\ny\rz".toUTF8 := rfl
  have hmissing : ¬ files.Readable ⟨"b.c"⟩ := nofun
  constructor
  · refine (excerpt_exact files _ (by decide)).1 (fun _ => sourceLines "x\r\ny\rz".toList) fun e he hname => ?_
    have hfile : e.file = "a.c" := by
      simp only [first, List.mem_cons, List.not_mem_nil, or_false] at he
      rcases he with rfl | rfl | rfl
      · rfl
      · exact absurd rfl hname
      · rfl
    exact ⟨_, hfile ▸ hread, inLines_iff.2 rfl⟩
  · obtain ⟨before, e, after, fault, hsplit, -, -, hrefuses, hexcerpt⟩ :=
      (excerpt_exact files ⟨[first, ⟨"b.c", ∅⟩]⟩ (by decide)).2
        fun h => hmissing (h ⟨"b.c", ∅⟩ (by simp) (by decide))
    have he : e ∈ before ++ e :: after := List.mem_append_right before List.mem_cons_self
    rw [← hsplit] at he
    rcases List.mem_pair.1 he with rfl | rfl
    · exact absurd ⟨_, hread⟩ hrefuses.not_readable
    · exact ⟨fault, hexcerpt⟩

end SourceSlice
