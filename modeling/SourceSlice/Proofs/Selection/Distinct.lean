import Mathlib.Data.Set.Card
import SourceSlice.Selection
/-!
# Selections that name each file once

An entry is found by the first name that fits, so only where every file has one entry do the entries say the same as
the look-ups.  Then a selection is determined by its files and by the lines it contains (`Distinct.ext`), and its lines
are counted by their pairs with their files (`Distinct.lineCount_eq`).
-/
namespace SourceSlice.Selection

variable {s t : Selection} {file : String} {line : UInt32} {lines : LineSet}

/-- **No file has two entries.** -/
def Distinct (s : Selection) : Prop := s.files.Nodup

instance (s : Selection) : Decidable s.Distinct := inferInstanceAs (Decidable s.files.Nodup)

/-! ## Looking up -/

theorem isSome_linesOf? : (s.linesOf? file).isSome ↔ file ∈ s.files := by
  suffices h : ∀ l : List Entry, (lookup file l).isSome ↔ file ∈ l.map (·.file) from h s.entries
  intro l
  induction l with
  | nil => simp [lookup]
  | cons e rest ih =>
    by_cases he : e.file = file
    · simp [lookup, he]
    · simp [lookup, he, ih, Ne.symm he]

theorem linesOf?_eq_none : s.linesOf? file = none ↔ file ∉ s.files := by
  rw [← isSome_linesOf?, Option.not_isSome_iff_eq_none]

theorem contains_iff : s.contains file line = true ↔ ∃ lines, s.linesOf? file = some lines ∧ line ∈ lines := by
  unfold contains
  cases s.linesOf? file <;> simp

theorem mem_getD_linesOf? : line ∈ (s.linesOf? file).getD ∅ ↔ s.contains file line = true := by
  rw [contains_iff]
  cases s.linesOf? file <;> simp

theorem mem_files_of_contains (h : s.contains file line = true) : file ∈ s.files := by
  obtain ⟨lines, hlines, -⟩ := contains_iff.1 h
  rw [← isSome_linesOf?, hlines]
  rfl

theorem linesOf?_eq (hfiles : file ∈ s.files ↔ file ∈ t.files)
    (hlines : ∀ line, s.contains file line = true ↔ t.contains file line = true) :
    s.linesOf? file = t.linesOf? file := by
  cases hs : s.linesOf? file with
  | none =>
    rw [linesOf?_eq_none, hfiles, ← linesOf?_eq_none] at hs
    exact hs.symm
  | some x =>
    cases ht : t.linesOf? file with
    | none =>
      rw [linesOf?_eq_none, ← hfiles, ← linesOf?_eq_none, hs] at ht
      cases ht
    | some y =>
      refine congrArg some (LineSet.ext_mem fun line => ?_)
      have hline := hlines line
      simpa only [contains_iff, hs, ht, Option.some.injEq, exists_eq_left'] using hline

theorem contains_update (change : LineSet → LineSet) (g : String) :
    (s.update file change).contains g line = true ↔
      if g = file then line ∈ change ((s.linesOf? file).getD ∅) else s.contains g line = true := by
  rw [contains_iff, linesOf?_update]
  split
  · simp
  · rw [contains_iff]

theorem fst_insertNew : (s.insertNew file line).1 = true ↔ s.contains file line = false := by
  rw [insertNew, touch, linesOf?_update, if_pos rfl, ← Bool.not_eq_true, ← mem_getD_linesOf?]
  simp

/-! ## Dropping what belongs to no file -/

theorem files_attributed (s : Selection) : s.attributed.files = s.files.filter (· ≠ "") := by
  rw [files, files, attributed, List.filter_map]
  rfl

theorem linesOf?_attributed (s : Selection) (file : String) :
    s.attributed.linesOf? file = if file = "" then none else s.linesOf? file := by
  suffices h : ∀ l : List Entry,
      lookup file (l.filter (·.file ≠ "")) = if file = "" then none else lookup file l from h s.entries
  intro l
  induction l with
  | nil => simp [lookup]
  | cons e rest ih =>
    by_cases he : e.file = ""
    · rw [List.filter_cons_of_neg (by simp [he]), ih, lookup]
      split
      · rfl
      next h => rw [if_neg fun e' => h (e'.symm.trans he)]
    · rw [List.filter_cons_of_pos (by simp [he]), lookup, lookup, ih]
      split
      next h => rw [if_neg (h ▸ he)]
      next => rfl

theorem contains_attributed :
    s.attributed.contains file line = true ↔ file ≠ "" ∧ s.contains file line = true := by
  rw [contains_iff, linesOf?_attributed, contains_iff]
  split <;> simp [*]

/-! ## One entry for each file -/

theorem distinct_empty : Distinct ∅ := List.nodup_nil

theorem eraseDups_concat (l : List String) (file : String) :
    (l ++ [file]).eraseDups = if file ∈ l.eraseDups then l.eraseDups else l.eraseDups ++ [file] := by
  have hmem : file ∈ l.eraseDups ↔ file ∈ l := List.mem_eraseDups
  rw [List.eraseDups_append]
  by_cases hold : file ∈ l.eraseDups
  · rw [if_pos hold]
    simp [List.removeAll, hmem.1 hold]
  · rw [if_neg hold]
    simp [List.removeAll, mt hmem.2 hold, List.eraseDups_cons]

theorem Distinct.update (h : s.Distinct) (file : String) (change : LineSet → LineSet) :
    (s.update file change).Distinct := by
  rw [Distinct, files_update]
  split
  · exact h
  next hnew => exact List.nodup_append.2 ⟨h, List.nodup_singleton _, fun a ha b hb => by
      rw [List.mem_singleton.1 hb]
      exact fun e => hnew (e ▸ ha)⟩

theorem Distinct.attributed (h : s.Distinct) : s.attributed.Distinct := by
  rw [Distinct, files_attributed]
  exact h.filter _

theorem Distinct.linesOf?_eq_some (h : s.Distinct) {e : Entry} (he : e ∈ s.entries) :
    s.linesOf? e.file = some e.lines := by
  suffices hl : ∀ l : List Entry, (l.map (·.file)).Nodup → e ∈ l → lookup e.file l = some e.lines from
    hl s.entries h he
  intro l hnodup hmem
  induction l with
  | nil => exact nomatch hmem
  | cons first rest ih =>
    rw [List.map_cons, List.nodup_cons] at hnodup
    rcases List.mem_cons.1 hmem with rfl | hmem
    · rw [lookup, if_pos rfl]
    · have hne : first.file ≠ e.file := fun heq => hnodup.1 (heq ▸ List.mem_map_of_mem hmem)
      rw [lookup, if_neg hne, ih hnodup.2 hmem]

theorem Distinct.contains_iff_mem (h : s.Distinct) :
    s.contains file line = true ↔ ∃ e ∈ s.entries, e.file = file ∧ line ∈ e.lines := by
  constructor
  · intro hline
    obtain ⟨e, he, rfl⟩ := List.mem_map.1 (mem_files_of_contains hline)
    obtain ⟨lines, hlines, hmem⟩ := contains_iff.1 hline
    rw [h.linesOf?_eq_some he] at hlines
    exact ⟨e, he, rfl, Option.some.inj hlines ▸ hmem⟩
  · rintro ⟨e, he, rfl, hmem⟩
    exact contains_iff.2 ⟨e.lines, h.linesOf?_eq_some he, hmem⟩

/-- **Two selections with the same files in the same order and the same lines are equal.** -/
theorem Distinct.ext (hs : s.Distinct) (ht : t.Distinct) (hfiles : s.files = t.files)
    (hlines : ∀ file line, s.contains file line = true ↔ t.contains file line = true) : s = t := by
  have hlength : s.entries.length = t.entries.length := by
    simpa only [files, List.length_map] using congrArg List.length hfiles
  suffices h : s.entries = t.entries by cases s; cases t; exact congrArg mk h
  refine List.ext_getElem hlength fun i hi hj => ?_
  have hfile : (s.entries[i]).file = (t.entries[i]).file := by
    have hget := congrArg (·[i]?) hfiles
    simpa only [files, List.getElem?_map, List.getElem?_eq_getElem hi, List.getElem?_eq_getElem hj, Option.map_some,
      Option.some.injEq] using hget
  have hsome := hs.linesOf?_eq_some (List.getElem_mem hi)
  rw [linesOf?_eq (by rw [hfiles]) (hlines _), hfile, ht.linesOf?_eq_some (List.getElem_mem hj)] at hsome
  rw [Entry.mk.injEq]
  exact ⟨hfile, (Option.some.inj hsome).symm⟩

/-! ## Counting lines -/

def pairs (s : Selection) : List (String × UInt32) := s.entries.flatMap fun e => e.lines.toList.map (e.file, ·)

theorem length_pairs (s : Selection) : s.pairs.length = s.lineCount := by
  suffices h : ∀ l : List Entry, (l.flatMap fun e => e.lines.toList.map (e.file, ·)).length
      = l.foldr (fun e n => e.lines.size + n) 0 from h s.entries
  intro l
  induction l with
  | nil => rfl
  | cons e rest ih =>
    rw [List.flatMap_cons, List.length_append, List.length_map, ih]
    rfl

theorem Distinct.mem_pairs (h : s.Distinct) : (file, line) ∈ s.pairs ↔ s.contains file line = true := by
  rw [h.contains_iff_mem, pairs, List.mem_flatMap]
  refine exists_congr fun e => and_congr_right fun _ => ?_
  rw [List.mem_map]
  constructor
  · rintro ⟨n, hn, heq⟩
    cases heq
    exact ⟨rfl, hn⟩
  · rintro ⟨rfl, hn⟩
    exact ⟨line, hn, rfl⟩

theorem Distinct.nodup_pairs (h : s.Distinct) : s.pairs.Nodup := by
  refine List.nodup_flatMap.2 ⟨fun e _ => ?_, ?_⟩
  · have hlines : e.lines.toList.Nodup :=
      e.lines.sorted.imp fun {a b} (hlt : a < b) (heq : a = b) => UInt32.lt_irrefl b (heq ▸ hlt)
    exact hlines.map fun a b heq => (Prod.mk.inj heq).2
  · -- two entries have two files, so no pair is of both
    refine (List.pairwise_map.1 h).imp fun {a b} hne => ?_
    intro p ha hb
    obtain ⟨_, -, rfl⟩ := List.mem_map.1 ha
    obtain ⟨_, -, heq⟩ := List.mem_map.1 hb
    exact hne (Prod.mk.inj heq).1.symm

/-- The pairs of a file and a line of it that a selection contains. -/
def lineSet (s : Selection) : Set (String × UInt32) := {p | s.contains p.1 p.2 = true}

theorem Distinct.coe_toFinset_pairs (h : s.Distinct) : (s.pairs.toFinset : Set (String × UInt32)) = s.lineSet := by
  ext ⟨file, line⟩
  rw [List.coe_toFinset, Set.mem_ofPred_eq, h.mem_pairs]
  rfl

theorem Distinct.finite_lineSet (h : s.Distinct) : s.lineSet.Finite := by
  rw [← h.coe_toFinset_pairs]
  exact Finset.finite_toSet _

/-- **The count of lines is that of the pairs of a file and a line of it.** -/
theorem Distinct.lineCount_eq (h : s.Distinct) : s.lineCount = s.lineSet.ncard := by
  rw [← h.coe_toFinset_pairs, Set.ncard_coe_finset, List.toFinset_card_of_nodup h.nodup_pairs, length_pairs]

end SourceSlice.Selection
