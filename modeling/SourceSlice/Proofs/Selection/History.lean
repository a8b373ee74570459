import Mathlib.Data.List.Induction
import Mathlib.Logic.Function.Basic
import SourceSlice.Engine.Answer
import SourceSlice.Proofs.Selection.Distinct
import SourceSlice.Proofs.Selection.Union
/-!
# Histories of selections

Callers work on any number of selections and read from one to change another.  `Shelf.perform` is one operation, done
to the selections and beside them, as a ghost, to the history of each: what happened to it and has not been forgotten.

Whatever was done, a selection has the entries its history tells, in the order they were made in, and the lines that
were added and not taken out since (`Shelf.orderedMap_after`).  `Reflects.apply` is the step: one happening keeps a
selection the reflection of its history.  Every operation is a run of happenings (`reflects_perform`).
-/
namespace SourceSlice

inductive LineEdit where
  | insert (line : UInt32)
  | erase (line : UInt32)
deriving DecidableEq

def LineEdit.apply (lines : LineSet) : LineEdit → LineSet
  | insert line => lines.insert line
  | erase line => lines.erase line

/-- The entry of a file is asked for, which makes it when it is new, and its lines are changed one after the other. -/
def Selection.edit (s : Selection) (file : String) (edits : List LineEdit) : Selection :=
  s.update file fun lines => edits.foldl LineEdit.apply lines

/-! ## What a history tells -/

inductive Happening where
  | asked (file : String)
  | added (file : String) (line : UInt32)
  | removed (file : String) (line : UInt32)
  /-- The entry that belongs to no file is dropped. -/
  | dropped
deriving DecidableEq

namespace Happening

def file? : Happening → Option String
  | asked file => some file
  | added file _ => some file
  | removed file _ => some file
  | dropped => none

def apply (s : Selection) : Happening → Selection
  | asked file => s.touch file
  | added file line => s.insert file line
  | removed file line => s.erase file line
  | dropped => s.attributed

def ofEdit (file : String) : LineEdit → Happening
  | .insert line => added file line
  | .erase line => removed file line

end Happening

abbrev History := List Happening

namespace History

def askedFor : History → List String
  | [] => []
  | h :: since => match h.file? with
    | some file => if file = "" ∧ .dropped ∈ since then askedFor since else file :: askedFor since
    | none => askedFor since

/-- **The files that have an entry**, in the order in which the entries were made. -/
def files (history : History) : List String := history.askedFor.eraseDups

/-- **A line was added to a file, and was neither removed nor dropped since.** -/
def Holds (history : History) (file : String) (line : UInt32) : Prop :=
  ∃ before since, history = before ++ .added file line :: since ∧ .removed file line ∉ since ∧
    (file = "" → .dropped ∉ since)

variable {history : History} {h : Happening} {file : String} {line : UInt32}

theorem askedFor_concat_of_file (hf : h.file? = some file) : ∀ history : History,
    askedFor (history ++ [h]) = askedFor history ++ [file]
  | [] => by simp [askedFor, hf]
  | first :: since => by
    have hd : Happening.dropped ∈ since ++ [h] ↔ .dropped ∈ since := by
      rw [List.mem_append, List.mem_singleton, or_iff_left]
      rintro rfl
      cases hf
    rw [List.cons_append, askedFor, askedFor, askedFor_concat_of_file hf since]
    simp only [hd]
    cases first.file? with
    | none => rfl
    | some g =>
      dsimp only
      split <;> rfl

theorem askedFor_concat_dropped : ∀ history : History,
    askedFor (history ++ [.dropped]) = (askedFor history).filter (· ≠ "")
  | [] => rfl
  | first :: since => by
    have hd : Happening.dropped ∈ since ++ [.dropped] := List.mem_append_right _ (List.mem_singleton.2 rfl)
    rw [List.cons_append, askedFor, askedFor, askedFor_concat_dropped since]
    cases first.file? with
    | none => rfl
    | some g =>
      dsimp only
      by_cases hg : g = ""
      · rw [if_pos ⟨hg, hd⟩]
        split
        · rfl
        · rw [List.filter_cons_of_neg (by simp [hg])]
      · rw [if_neg fun h => hg h.1, if_neg fun h => hg h.1, List.filter_cons_of_pos (by simp [hg])]

theorem eraseDups_filter (p : String → Bool) : ∀ l : List String, (l.filter p).eraseDups = l.eraseDups.filter p
  | [] => rfl
  | a :: rest => by
    have hlt : (rest.filter fun b => !b == a).length < rest.length + 1 :=
      Nat.lt_succ_of_le (List.length_filter_le _ _)
    have hrest := eraseDups_filter p (rest.filter fun b => !b == a)
    rw [List.eraseDups_cons]
    by_cases ha : p a = true
    · rw [List.filter_cons_of_pos ha, List.filter_cons_of_pos ha, List.eraseDups_cons, ← hrest, List.filter_filter,
        List.filter_filter]
      simp only [Bool.and_comm]
    · rw [List.filter_cons_of_neg ha, List.filter_cons_of_neg ha, ← hrest, List.filter_filter]
      -- what equals the first name fails the test as it does
      refine congrArg List.eraseDups (List.filter_congr fun b _ => ?_)
      by_cases hb : b = a
      · simp [hb, ha]
      · simp [hb]
termination_by l => l.length

theorem files_concat_of_file (hf : h.file? = some file) (history : History) :
    files (history ++ [h]) = if file ∈ history.files then history.files else history.files ++ [file] := by
  rw [files, askedFor_concat_of_file hf, Selection.eraseDups_concat, ← files]

theorem files_concat_dropped (history : History) :
    files (history ++ [.dropped]) = history.files.filter (· ≠ "") := by
  rw [files, askedFor_concat_dropped, eraseDups_filter, files]

theorem holds_concat : Holds (history ++ [h]) file line ↔
    h = .added file line ∨ Holds history file line ∧ h ≠ .removed file line ∧ (file = "" → h ≠ .dropped) := by
  constructor
  · rintro ⟨before, since, heq, hremoved, hdropped⟩
    rcases List.eq_nil_or_concat since with rfl | ⟨since, last, rfl⟩
    · exact .inl (List.cons.inj (List.append_inj' heq rfl).2).1
    · rw [List.concat_eq_append, ← List.cons_append, ← List.append_assoc] at heq
      obtain ⟨rfl, hlast⟩ := List.append_inj' heq rfl
      obtain rfl : h = last := (List.cons.inj hlast).1
      rw [List.concat_eq_append] at hremoved hdropped
      simp only [List.mem_append, List.mem_singleton, not_or] at hremoved hdropped
      exact .inr ⟨⟨before, since, rfl, hremoved.1, fun e => (hdropped e).1⟩, Ne.symm hremoved.2,
        fun e => Ne.symm (hdropped e).2⟩
  · rintro (rfl | ⟨⟨before, since, rfl, hremoved, hdropped⟩, hne, hne'⟩)
    · exact ⟨history, [], rfl, List.not_mem_nil, fun _ => List.not_mem_nil⟩
    · refine ⟨before, since ++ [h], by rw [List.append_assoc, List.cons_append], ?_, fun e => ?_⟩
      · simp only [List.mem_append, List.mem_singleton, not_or]
        exact ⟨hremoved, Ne.symm hne⟩
      · simp only [List.mem_append, List.mem_singleton, not_or]
        exact ⟨hdropped e, Ne.symm (hne' e)⟩

end History

namespace Selection

open History

variable {s t : Selection} {history : History} {h : Happening} {file : String}

/-- **A selection is what its history tells.** -/
structure Reflects (s : Selection) (history : History) : Prop where
  distinct : s.Distinct
  files : s.files = history.files
  contains : ∀ file line, s.contains file line = true ↔ history.Holds file line

theorem reflects_empty : Reflects ∅ [] where
  distinct := distinct_empty
  files := rfl
  contains file line := by
    constructor
    · exact nofun
    · rintro ⟨before, since, heq, -⟩
      exact absurd heq.symm (List.append_ne_nil_of_right_ne_nil _ (List.cons_ne_nil _ _))

theorem Reflects.update (hs : s.Reflects history) {change : LineSet → LineSet} (hf : h.file? = some file)
    (hchange : ∀ lines line, line ∈ change lines ↔
      h = .added file line ∨ line ∈ lines ∧ h ≠ .removed file line) :
    (s.update file change).Reflects (history ++ [h]) where
  distinct := hs.distinct.update file change
  files := by rw [files_update, hs.files, files_concat_of_file hf]
  contains g line := by
    rw [contains_update, holds_concat, ← hs.contains]
    have hnot : h ≠ .dropped := by rintro rfl; cases hf
    split
    next hg =>
      subst hg
      rw [hchange, mem_getD_linesOf?]
      simp only [ne_eq, hnot, not_false_eq_true, implies_true, and_true]
    next hg =>
      -- what happens to one file is nothing to another
      have hadded : h ≠ .added g line := by rintro rfl; exact hg (Option.some.inj hf)
      have hremoved : h ≠ .removed g line := by rintro rfl; exact hg (Option.some.inj hf)
      simp only [hadded, ne_eq, hremoved, hnot, not_false_eq_true, implies_true, and_true, false_or]

/-- **One happening keeps a selection the reflection of its history.** -/
theorem Reflects.apply (hs : s.Reflects history) (h : Happening) : (h.apply s).Reflects (history ++ [h]) := by
  cases h with
  | asked file => exact hs.update rfl fun lines line => by simp
  | added file line => exact hs.update rfl fun lines n => by simp [eq_comm]
  | removed file line => exact hs.update rfl fun lines n => by simp [eq_comm]
  | dropped =>
    refine ⟨hs.distinct.attributed, ?_, fun file line => ?_⟩
    · change s.attributed.files = _
      rw [files_attributed, hs.files, files_concat_dropped]
    · change s.attributed.contains file line = true ↔ _
      rw [contains_attributed, holds_concat, hs.contains]
      simp [and_comm]

theorem Reflects.foldl_apply : ∀ {more : History} {s : Selection} {history : History}, s.Reflects history →
    (more.foldl Happening.apply s).Reflects (history ++ more)
  | [], s, history, hs => by rwa [List.append_nil]
  | h :: more, s, history, hs => by
    rw [List.foldl_cons, List.append_cons]
    exact (hs.apply h).foldl_apply

/-! ## Operations as happenings -/

def happenings (s : Selection) : History :=
  s.entries.flatMap fun e => .asked e.file :: e.lines.toList.map (.added e.file)

theorem foldl_ofEdit : ∀ (edits : List LineEdit) (change : LineSet → LineSet),
    (edits.map (Happening.ofEdit file)).foldl Happening.apply (s.update file change)
      = s.update file fun lines => edits.foldl LineEdit.apply (change lines)
  | [], _ => rfl
  | edit :: rest, change => by
    have hone : Happening.apply (s.update file change) (.ofEdit file edit)
        = s.update file fun lines => edit.apply (change lines) := by
      cases edit with
      | insert line => exact congrArg mk (updateEntries_same file _ _ s.entries)
      | erase line => exact congrArg mk (updateEntries_same file _ _ s.entries)
    rw [List.map_cons, List.foldl_cons, hone, foldl_ofEdit rest]
    rfl

theorem edit_eq_foldl (s : Selection) (file : String) (edits : List LineEdit) :
    s.edit file edits = (.asked file :: edits.map (.ofEdit file)).foldl Happening.apply s :=
  (foldl_ofEdit edits id).symm

theorem insertMany_eq_foldl (s : Selection) (file : String) (lines : List UInt32) :
    s.insertMany file lines = (.asked file :: lines.map (.added file)).foldl Happening.apply s := by
  have hset (x : LineSet) : x.insertMany lines = (lines.map LineEdit.insert).foldl LineEdit.apply x := by
    rw [List.foldl_map]
    rfl
  have hedit : s.insertMany file lines = s.edit file (lines.map .insert) := congrArg (s.update file) (funext hset)
  rw [hedit, edit_eq_foldl, List.map_map]
  rfl

theorem union_eq_foldl (s t : Selection) : s.union t = t.happenings.foldl Happening.apply s := by
  rw [union, happenings, List.foldl_flatMap]
  exact congrArg (fun f => t.entries.foldl f s) (funext fun s => funext fun e => insertMany_eq_foldl s e.file _)

end Selection

namespace Report

open Text

def happeningsOfLine (line : List Char) : History :=
  if trim line = [] then []
  else match splitOn ',' line with
    | [] => []
    | file :: fields =>
      .asked (String.ofList file) ::
        (fields.filterMap LineNumber.parseField?).map fun n => .added (String.ofList file) n.val

def happenings (report : String) : History := (lines report.toList).flatMap happeningsOfLine

theorem numbers_eq_ok {line : List Char} : ∀ {fields : List (List Char)} {ns : List UInt32},
    numbers line fields = .ok ns → ns = (fields.filterMap LineNumber.parseField?).map (·.val)
  | [], _, h => (Except.ok.inj h).symm
  | field :: fields, ns, h => by
    rw [numbers] at h
    cases hfield : LineNumber.parseField? field with
    | none => rw [hfield] at h; cases h
    | some n =>
      rw [hfield] at h
      cases hrest : numbers line fields with
      | error fault => rw [hrest] at h; cases h
      | ok rest =>
        rw [hrest] at h
        rw [List.filterMap_cons_some hfield, List.map_cons, ← numbers_eq_ok hrest]
        exact (Except.ok.inj h).symm

theorem addLine_eq_ok {s t : Selection} {line : List Char} (h : addLine s line = .ok t) :
    t = (happeningsOfLine line).foldl Happening.apply s := by
  unfold addLine at h
  unfold happeningsOfLine
  split at h
  next hblank =>
    rw [if_pos hblank]
    exact (Except.ok.inj h).symm
  next hblank =>
    rw [if_neg hblank]
    cases hsplit : splitOn ',' line with
    | nil => exact absurd hsplit (splitOn_ne_nil ',' line)
    | cons file fields =>
      rw [hsplit] at h
      dsimp only at h ⊢
      cases hns : numbers line fields with
      | error fault => rw [hns] at h; cases h
      | ok ns =>
        rw [hns] at h
        have ht : t = s.insertMany (String.ofList file) ns := (Except.ok.inj h).symm
        rw [ht, Selection.insertMany_eq_foldl, numbers_eq_ok hns, List.map_map]
        rfl

theorem addLines_eq_ok : ∀ {l : List (List Char)} {s t : Selection}, addLines s l = .ok t →
    t = (l.flatMap happeningsOfLine).foldl Happening.apply s
  | [], _, _, h => (Except.ok.inj h).symm
  | line :: rest, s, t, h => by
    rw [addLines] at h
    cases hline : addLine s line with
    | error fault => rw [hline] at h; cases h
    | ok u =>
      rw [hline] at h
      rw [List.flatMap_cons, List.foldl_append, ← addLine_eq_ok hline]
      exact addLines_eq_ok h

theorem parse_eq_ok {report : String} {s : Selection} (h : parse report = .ok s) :
    s = (happenings report).foldl Happening.apply ∅ := addLines_eq_ok h

end Report

/-! ## Any number of selections -/

/-- An operation on selections that are told apart by their names.  Another selection is read as it was before. -/
inductive Operation (ι : Type) where
  | new (i : ι)
  | insert (i : ι) (file : String) (line : UInt32)
  | extend (i : ι) (file : String) (lines : List UInt32)
  | entry (i : ι) (file : String) (edits : List LineEdit)
  | unionWith (i other : ι)
  | merged (i first second : ι)
  | attributed (i : ι)
  /-- A selection is read from a report, unless that has a fault. -/
  | parse (i : ι) (report : String)

structure Shelf (ι : Type) where
  selections : ι → Selection
  histories : ι → History

namespace Shelf

variable {ι : Type} [DecidableEq ι]

def empty : Shelf ι := ⟨fun _ => ∅, fun _ => []⟩

def put (shelf : Shelf ι) (i : ι) (s : Selection) (history : History) : Shelf ι :=
  ⟨Function.update shelf.selections i s, Function.update shelf.histories i history⟩

/-- **One operation.**  A merged selection takes over the history of its first part. -/
def perform (shelf : Shelf ι) : Operation ι → Shelf ι
  | .new i => shelf.put i ∅ []
  | .insert i file line =>
    shelf.put i ((shelf.selections i).insertNew file line).2 (shelf.histories i ++ [.added file line])
  | .extend i file lines =>
    shelf.put i ((shelf.selections i).insertMany file lines)
      (shelf.histories i ++ .asked file :: lines.map (.added file))
  | .entry i file edits =>
    shelf.put i ((shelf.selections i).edit file edits) (shelf.histories i ++ .asked file :: edits.map (.ofEdit file))
  | .unionWith i other =>
    shelf.put i ((shelf.selections i).union (shelf.selections other))
      (shelf.histories i ++ (shelf.selections other).happenings)
  | .merged i first second =>
    shelf.put i ((shelf.selections first).union (shelf.selections second))
      (shelf.histories first ++ (shelf.selections second).happenings)
  | .attributed i => shelf.put i (shelf.selections i).attributed (shelf.histories i ++ [.dropped])
  | .parse i report => match Report.parse report with
    | .ok s => shelf.put i s (Report.happenings report)
    | .error _ => shelf

def after (operations : List (Operation ι)) : Shelf ι := operations.foldl perform empty

def Reflects (shelf : Shelf ι) : Prop := ∀ i, (shelf.selections i).Reflects (shelf.histories i)

theorem Reflects.put {shelf : Shelf ι} (h : shelf.Reflects) {s : Selection} {history : History}
    (hs : s.Reflects history) (i : ι) : (shelf.put i s history).Reflects := by
  intro j
  change (Function.update shelf.selections i s j).Reflects (Function.update shelf.histories i history j)
  rw [Function.update_apply, Function.update_apply]
  split
  · exact hs
  · exact h j

theorem reflects_perform {shelf : Shelf ι} (h : shelf.Reflects) (operation : Operation ι) :
    (shelf.perform operation).Reflects := by
  have hrun {s : Selection} {history more : History} (hs : s.Reflects history) {t : Selection}
      (ht : t = more.foldl Happening.apply s) : t.Reflects (history ++ more) := ht ▸ hs.foldl_apply
  cases operation with
  | new i => exact h.put Selection.reflects_empty i
  | insert i file line => exact h.put ((h i).apply (.added file line)) i
  | extend i file lines => exact h.put (hrun (h i) (Selection.insertMany_eq_foldl _ _ _)) i
  | entry i file edits => exact h.put (hrun (h i) (Selection.edit_eq_foldl _ _ _)) i
  | unionWith i other => exact h.put (hrun (h i) (Selection.union_eq_foldl _ _)) i
  | merged i first second => exact h.put (hrun (h first) (Selection.union_eq_foldl _ _)) i
  | attributed i => exact h.put ((h i).apply .dropped) i
  | parse i report =>
    rw [perform]
    cases hparse : Report.parse report with
    | error fault => exact h
    | ok s => exact h.put (hrun Selection.reflects_empty (Report.parse_eq_ok hparse)) i

theorem reflects_after (operations : List (Operation ι)) : (after operations).Reflects := by
  suffices hall : ∀ (operations : List (Operation ι)) {shelf : Shelf ι}, shelf.Reflects →
      (operations.foldl perform shelf).Reflects from hall operations fun _ => Selection.reflects_empty
  intro operations
  induction operations with
  | nil => exact fun h => h
  | cons operation rest ih => exact fun h => ih (reflects_perform h operation)

end Shelf

/-- **A selection is the map of sets that its history tells**, its keys in the order in which they were made. -/
structure Selection.OrderedMap (s : Selection) (history : History) : Prop where
  distinct : s.files.Nodup
  files : s.files = history.files
  linesOf? : ∀ file, (s.linesOf? file).isSome ↔ file ∈ history.askedFor
  contains : ∀ file line, s.contains file line = true ↔ history.Holds file line
  insertNew : ∀ file line, (s.insertNew file line).1 = true ↔ s.contains file line = false
  size : s.size = {file | file ∈ history.askedFor}.ncard
  lineCount : s.lineCount = {p : String × UInt32 | history.Holds p.1 p.2}.ncard

namespace Selection

variable {s t : Selection} {history : History}

theorem Reflects.orderedMap (h : s.Reflects history) : s.OrderedMap history where
  distinct := h.distinct
  files := h.files
  linesOf? file := by rw [isSome_linesOf?, h.files, History.files, List.mem_eraseDups]
  contains := h.contains
  insertNew _ _ := fst_insertNew
  size := by
    have hset : {file | file ∈ history.askedFor} = (s.files.toFinset : Set String) := by
      ext file
      rw [Set.mem_ofPred_eq, List.coe_toFinset, Set.mem_ofPred_eq, h.files, History.files, List.mem_eraseDups]
    rw [hset, Set.ncard_coe_finset, List.toFinset_card_of_nodup h.distinct]
    exact (List.length_map _).symm
  lineCount := by
    have hset : {p : String × UInt32 | history.Holds p.1 p.2} = s.lineSet := by
      ext p
      exact (h.contains p.1 p.2).symm
    rw [hset, h.distinct.lineCount_eq]

/-- What a selection is depends on its files and lines alone, and not on how its history brought them about. -/
theorem Reflects.eq_iff {history' : History} (hs : s.Reflects history) (ht : t.Reflects history') :
    s = t ↔ history.files = history'.files ∧ ∀ file line, history.Holds file line ↔ history'.Holds file line := by
  simp only [← hs.files, ← ht.files, ← hs.contains, ← ht.contains]
  constructor
  · rintro rfl
    exact ⟨rfl, fun _ _ => Iff.rfl⟩
  · rintro ⟨hfiles, hlines⟩
    exact hs.distinct.ext ht.distinct hfiles hlines

end Selection

/-- **Selections are maps of sets in the order of insertion**, whatever operations made them, and two of them are equal
exactly when they have the same files in the same order and the same lines in each. -/
theorem Shelf.orderedMap_after {ι : Type} [DecidableEq ι] (operations : List (Operation ι)) :
    (∀ i, ((after operations).selections i).OrderedMap ((after operations).histories i)) ∧
      ∀ i j, (after operations).selections i = (after operations).selections j ↔
        ((after operations).histories i).files = ((after operations).histories j).files ∧
          ∀ file line, ((after operations).histories i).Holds file line
            ↔ ((after operations).histories j).Holds file line :=
  ⟨fun i => (reflects_after operations i).orderedMap,
    fun i j => (reflects_after operations i).eq_iff (reflects_after operations j)⟩

end SourceSlice
