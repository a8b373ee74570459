import Mathlib.Data.Set.Card
import SourceSlice.Proofs.Selection.Distinct
import SourceSlice.Proofs.Selection.Union
/-!
# The algebra of union

A union goes through the entries of its second half and changes what the look-up finds, so it meets the entries it has
made itself.  `files_addEntries`, `contains_addEntries` and `Later.addEntries` say what comes of that for any entries,
files that are named twice included: together they determine a union (`Joins`), for an entry is either the first of its
file or a later one.

Where files are named once, unions are those of the sets of lines, and their laws follow (`Laws`).
-/
namespace SourceSlice.Selection

variable {s t u : Selection} {file : String} {line : UInt32}

/-! ## What becomes of the entries -/

theorem files_addEntries : ∀ (l : List Entry) (s : Selection),
    (s.addEntries l).files = s.files ++ ((l.map (·.file)).filter (· ∉ s.files)).eraseDups
  | [], s => (List.append_nil _).symm
  | e :: rest, s => by
    change ((s.insertMany e.file e.lines.toList).addEntries rest).files = _
    rw [files_addEntries rest, insertMany, files_update, List.map_cons]
    by_cases he : e.file ∈ s.files
    · rw [if_pos he, List.filter_cons_of_neg (by simpa using he)]
    · -- the file is new here, and when it is named again it is not
      rw [if_neg he, List.filter_cons_of_pos (by simpa using he), List.eraseDups_cons, List.filter_filter,
        List.append_assoc, List.singleton_append]
      refine congrArg (fun l => s.files ++ e.file :: List.eraseDups l) (List.filter_congr fun g _ => ?_)
      by_cases hg : g = e.file
      · simp [hg]
      · simp [hg]

theorem contains_addEntries : ∀ (l : List Entry) {s : Selection}, (s.addEntries l).contains file line = true ↔
    s.contains file line = true ∨ ∃ e ∈ l, e.file = file ∧ line ∈ e.lines
  | [], s => by simp [addEntries]
  | e :: rest, s => by
    change ((s.insertMany e.file e.lines.toList).addEntries rest).contains file line = true ↔ _
    rw [contains_addEntries rest, insertMany, contains_update, List.exists_mem_cons_iff, ← or_assoc]
    refine or_congr_left ?_
    split
    next h =>
      subst h
      rw [LineSet.mem_insertMany, ← LineSet.mem_def, mem_getD_linesOf?]
      simp [or_comm]
    next h => simp [Ne.symm h]

/-- An entry, and its place, that another entry of its file stands before. -/
def Later (s : Selection) (i : Nat) (e : Entry) : Prop := s.entries[i]? = some e ∧ e.file ∈ s.files.take i

theorem getElem?_updateEntries (change : LineSet → LineSet) : ∀ {l : List Entry} {i : Nat} {e : Entry},
    l[i]? = some e → (e.file = file → file ∈ (l.map (·.file)).take i) →
      (updateEntries file change l)[i]? = some e
  | [], _, _, h, _ => nomatch h
  | first :: rest, 0, e, h, hearlier => by
    obtain rfl : first = e := Option.some.inj h
    rw [updateEntries, if_neg fun he => List.not_mem_nil (hearlier he)]
    rfl
  | first :: rest, i + 1, e, h, hearlier => by
    rw [List.getElem?_cons_succ] at h
    rw [updateEntries]
    split
    · exact h
    next hne =>
      rw [List.getElem?_cons_succ]
      refine getElem?_updateEntries change h fun he => ?_
      rw [List.map_cons, List.take_succ_cons, List.mem_cons] at hearlier
      exact (hearlier he).resolve_left (Ne.symm hne)

theorem Later.update {i : Nat} {e : Entry} (h : s.Later i e) (file : String) (change : LineSet → LineSet) :
    (s.update file change).Later i e := by
  refine ⟨getElem?_updateEntries change h.1 fun he => he ▸ h.2, ?_⟩
  rw [files_update]
  split
  · exact h.2
  · rw [List.take_append]
    exact List.mem_append_left _ h.2

theorem Later.addEntries {i : Nat} {e : Entry} : ∀ (l : List Entry) {s : Selection}, s.Later i e →
    (s.addEntries l).Later i e
  | [], _, h => h
  | e :: rest, _, h => Later.addEntries rest (h.update e.file _)

/-- **What a union is of its halves**, whatever they name twice: every entry is the first of its file or a later one. -/
structure Joins (s t joined : Selection) : Prop where
  files : joined.files = s.files ++ (t.files.filter (· ∉ s.files)).eraseDups
  first : ∀ file ∈ joined.files, ∃ lines, joined.linesOf? file = some lines ∧ ∀ line, line ∈ lines ↔
    (∃ old, s.linesOf? file = some old ∧ line ∈ old) ∨ ∃ e ∈ t.entries, e.file = file ∧ line ∈ e.lines
  later : ∀ i e, s.Later i e → joined.entries[i]? = some e

theorem joins_union (s t : Selection) : Joins s t (s.union t) where
  files := files_addEntries t.entries s
  first file hfile := by
    obtain ⟨lines, hlines⟩ := Option.isSome_iff_exists.1 (isSome_linesOf?.2 hfile)
    refine ⟨lines, hlines, fun line => ?_⟩
    have hmem : (s.union t).contains file line = true ↔ line ∈ lines := by
      rw [contains_iff, hlines]
      simp
    rw [← hmem, ← contains_iff]
    exact contains_addEntries t.entries
  later _ _ h := (h.addEntries t.entries).1

theorem union_addEntries (s : Selection) : ∀ (l : List Entry) (t : Selection),
    s.union (t.addEntries l) = (s.union t).addEntries l
  | [], _ => rfl
  | e :: rest, t => by
    change s.union ((t.insertMany e.file e.lines.toList).addEntries rest) = _
    rw [union_addEntries s rest, union_insertMany]
    rfl

theorem union_assoc (s t u : Selection) : (s.union t).union u = s.union (t.union u) :=
  (union_addEntries s u.entries t).symm

/-! ## Where files are named once -/

theorem eraseDups_of_nodup : ∀ {l : List String}, l.Nodup → l.eraseDups = l
  | [], _ => rfl
  | a :: rest, h => by
    obtain ⟨ha, hrest⟩ := List.nodup_cons.1 h
    have hkeep : rest.filter (fun b => !b == a) = rest :=
      List.filter_eq_self.2 fun b hb => by simpa using fun e : b = a => ha (e ▸ hb)
    rw [List.eraseDups_cons, hkeep, eraseDups_of_nodup hrest]

theorem Distinct.addEntries : ∀ (l : List Entry) {s : Selection}, s.Distinct → (s.addEntries l).Distinct
  | [], _, h => h
  | e :: rest, _, h => Distinct.addEntries rest (h.update e.file _)

theorem Distinct.union (h : s.Distinct) (t : Selection) : (s.union t).Distinct := Distinct.addEntries t.entries h

theorem mem_files_union : file ∈ (s.union t).files ↔ file ∈ s.files ∨ file ∈ t.files := by
  rw [(joins_union s t).files, List.mem_append, List.mem_eraseDups, List.mem_filter, decide_eq_true_eq]
  exact ⟨Or.imp_right And.left, fun h => or_iff_not_imp_left.2 fun hs => ⟨h.resolve_left hs, hs⟩⟩

theorem Distinct.contains_union (ht : t.Distinct) :
    (s.union t).contains file line = true ↔ s.contains file line = true ∨ t.contains file line = true := by
  rw [ht.contains_iff_mem]
  exact contains_addEntries t.entries

theorem Distinct.empty_union (h : s.Distinct) : (∅ : Selection).union s = s := by
  refine (distinct_empty.union s).ext h ?_ fun file line => ?_
  · have hall : s.files.filter (· ∉ (∅ : Selection).files) = s.files := List.filter_eq_self.2 fun _ _ => rfl
    rw [(joins_union ∅ s).files, hall, eraseDups_of_nodup h]
    rfl
  · rw [h.contains_union]
    exact or_iff_right nofun

theorem Distinct.union_eq_left (hs : s.Distinct) (ht : t.Distinct) (hfiles : ∀ file ∈ t.files, file ∈ s.files)
    (hlines : ∀ file line, t.contains file line = true → s.contains file line = true) : s.union t = s := by
  refine (hs.union t).ext hs ?_ fun file line => ?_
  · have hnone : t.files.filter (· ∉ s.files) = [] := List.filter_eq_nil_iff.2 fun f hf => by simpa using hfiles f hf
    rw [(joins_union s t).files, hnone]
    exact List.append_nil _
  · rw [ht.contains_union]
    exact or_iff_left_of_imp (hlines file line)

theorem Distinct.linesOf?_union_comm (hs : s.Distinct) (ht : t.Distinct) (file : String) :
    (s.union t).linesOf? file = (t.union s).linesOf? file := by
  refine linesOf?_eq ?_ fun line => ?_
  · rw [mem_files_union, mem_files_union, or_comm]
  · rw [ht.contains_union, hs.contains_union, or_comm]

theorem Distinct.lineSet_union (ht : t.Distinct) : (s.union t).lineSet = s.lineSet ∪ t.lineSet := by
  ext ⟨file, line⟩
  exact ht.contains_union

theorem Distinct.lineCount_union (hs : s.Distinct) (ht : t.Distinct) :
    (s.union t).lineCount + (s.lineSet ∩ t.lineSet).ncard = s.lineCount + t.lineCount := by
  rw [(hs.union t).lineCount_eq, ht.lineSet_union, hs.lineCount_eq, ht.lineCount_eq]
  exact Set.ncard_union_add_ncard_inter _ _ hs.finite_lineSet ht.finite_lineSet

structure Laws (s t : Selection) : Prop where
  empty_left : (∅ : Selection).union s = s
  empty_right : s.union ∅ = s
  idem : s.union s = s
  absorb : (s.union t).union s = s.union t
  comm : ∀ file, (s.union t).linesOf? file = (t.union s).linesOf? file
  lineCount_comm : (s.union t).lineCount = (t.union s).lineCount
  lineCount : (s.union t).lineCount = s.lineCount + t.lineCount - (s.lineSet ∩ t.lineSet).ncard
  shared_le : (s.lineSet ∩ t.lineSet).ncard ≤ s.lineCount + t.lineCount

theorem Distinct.laws (hs : s.Distinct) (ht : t.Distinct) : Laws s t where
  empty_left := hs.empty_union
  empty_right := union_empty s
  idem := hs.union_eq_left hs (fun _ h => h) fun _ _ h => h
  absorb := (hs.union t).union_eq_left hs (fun _ h => mem_files_union.2 (.inl h))
    fun _ _ h => ht.contains_union.2 (.inl h)
  comm := hs.linesOf?_union_comm ht
  lineCount_comm := by
    rw [(hs.union t).lineCount_eq, (ht.union s).lineCount_eq, ht.lineSet_union, hs.lineSet_union, Set.union_comm]
  lineCount := Nat.eq_sub_of_add_eq (hs.lineCount_union ht)
  shared_le := hs.lineCount_union ht ▸ Nat.le_add_left _ _

/-- **The algebra of union**: what it makes of any two selections, that it is associative, and its laws where files are
named once. -/
theorem union_algebra (s t u : Selection) :
    Joins s t (s.union t) ∧ (s.union t).union u = s.union (t.union u) ∧ (s.Distinct → t.Distinct → Laws s t) :=
  ⟨joins_union s t, union_assoc s t u, Distinct.laws⟩

/-- Two selections that share a line, each with a file of its own. -/
theorem union_algebra_shared :
    let s : Selection := ⟨[⟨"a.c", .ofList [2, 1]⟩, ⟨"b.c", .ofList [3]⟩]⟩
    let t : Selection := ⟨[⟨"b.c", .ofList [4, 3]⟩, ⟨"c.c", ∅⟩]⟩
    s.Distinct ∧ t.Distinct ∧ Laws s t := by
  intro s t
  have hs : s.Distinct := by decide
  have ht : t.Distinct := by decide
  exact ⟨hs, ht, (union_algebra s t ∅).2.2 hs ht⟩

/-- A file that is named twice: its lines all go to the first entry, and the later one stays as it was. -/
example :
    let s : Selection := ⟨[⟨"a.c", .ofList [1]⟩, ⟨"a.c", .ofList [2]⟩]⟩
    let t : Selection := ⟨[⟨"b.c", ∅⟩, ⟨"a.c", .ofList [5]⟩, ⟨"b.c", .ofList [7]⟩, ⟨"a.c", .ofList [4]⟩]⟩
    s.union t = ⟨[⟨"a.c", .ofList [1, 4, 5]⟩, ⟨"a.c", .ofList [2]⟩, ⟨"b.c", .ofList [7]⟩]⟩ := by
  decide

end SourceSlice.Selection
