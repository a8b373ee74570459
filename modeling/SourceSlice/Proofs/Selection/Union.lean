import SourceSlice.Selection
/-!
# Unions of selections

Lines that are added to a selection may as well be added to the second half of a union (`union_insertMany`): the lines
of a file that is named already can be added at any time, for they neither move an entry nor make one.
-/
namespace SourceSlice

namespace LineSet

theorem insertMany_comm (s : LineSet) (k l : List UInt32) :
    (s.insertMany k).insertMany l = (s.insertMany l).insertMany k := by
  refine ext_mem fun x => ?_
  simp only [mem_insertMany]
  exact or_left_comm

theorem insertMany_toList_insertMany (s t : LineSet) (l : List UInt32) :
    s.insertMany (t.insertMany l).toList = (s.insertMany t.toList).insertMany l := by
  refine ext_mem fun x => ?_
  have h : x ∈ (t.insertMany l).toList ↔ x ∈ l ∨ x ∈ t := mem_insertMany
  simp only [mem_insertMany, h, ← mem_def]
  exact or_assoc

end LineSet

namespace Selection

theorem updateEntries_same (file : String) (c d : LineSet → LineSet) : ∀ l : List Entry,
    updateEntries file c (updateEntries file d l) = updateEntries file (fun lines => c (d lines)) l
  | [] => by simp [updateEntries]
  | e :: rest => by
    have ih := updateEntries_same file c d rest
    by_cases he : e.file = file
    · simp [updateEntries, he]
    · simp [updateEntries, he, ih]

theorem updateEntries_comm {file g : String} (hne : file ≠ g) (c d : LineSet → LineSet) :
    ∀ {l : List Entry}, file ∈ l.map (·.file) →
      updateEntries file c (updateEntries g d l) = updateEntries g d (updateEntries file c l)
  | [], h => nomatch h
  | e :: rest, h => by
    by_cases he : e.file = file
    · have hg : e.file ≠ g := fun hg => hne (he.symm.trans hg)
      rw [updateEntries, if_neg hg, updateEntries, if_pos he, updateEntries, if_pos he, updateEntries, if_neg hg]
    · have hrest : file ∈ rest.map (·.file) := (List.mem_cons.1 h).resolve_left (Ne.symm he)
      by_cases hg : e.file = g
      · rw [updateEntries, if_pos hg, updateEntries, if_neg he, updateEntries, if_neg he, updateEntries, if_pos hg]
      · rw [updateEntries, if_neg hg, updateEntries, if_neg he, updateEntries, if_neg he, updateEntries, if_neg hg,
          updateEntries_comm hne c d hrest]

variable {s t : Selection} {file : String}

theorem mem_files_insertMany (s : Selection) (file : String) (lines : List UInt32) :
    file ∈ (s.insertMany file lines).files := by
  rw [insertMany, files_update]
  split
  · assumption
  · simp

theorem mem_files_insertMany_of_mem (h : file ∈ s.files) (g : String) (lines : List UInt32) :
    file ∈ (s.insertMany g lines).files := by
  rw [insertMany, files_update]
  split
  · exact h
  · exact List.mem_append_left _ h

theorem insertMany_comm (h : file ∈ s.files) (g : String) (k l : List UInt32) :
    (s.insertMany g k).insertMany file l = (s.insertMany file l).insertMany g k := by
  unfold insertMany update
  congr 1
  by_cases hg : file = g
  · subst hg
    rw [updateEntries_same, updateEntries_same]
    exact congrArg (updateEntries file · s.entries) (funext fun lines => lines.insertMany_comm k l)
  · exact updateEntries_comm hg _ _ h

def addEntries (s : Selection) (l : List Entry) : Selection :=
  l.foldl (fun s e => s.insertMany e.file e.lines.toList) s

theorem addEntries_insertMany : ∀ (l : List Entry) {s : Selection}, file ∈ s.files → ∀ lines : List UInt32,
    (s.addEntries l).insertMany file lines = (s.insertMany file lines).addEntries l
  | [], _, _, _ => rfl
  | e :: rest, s, h, lines => by
    change ((s.insertMany e.file e.lines.toList).addEntries rest).insertMany file lines = _
    rw [addEntries_insertMany rest (mem_files_insertMany_of_mem h _ _), insertMany_comm h]
    rfl

theorem addEntries_updateEntries (file : String) (lines : List UInt32) : ∀ (l : List Entry) (s : Selection),
    s.addEntries (updateEntries file (·.insertMany lines) l) = (s.addEntries l).insertMany file lines
  | [], s => by
    have hset (x : LineSet) : x.insertMany ((∅ : LineSet).insertMany lines).toList = x.insertMany lines :=
      x.insertMany_toList_insertMany ∅ lines
    change s.update file (·.insertMany ((∅ : LineSet).insertMany lines).toList) = s.update file (·.insertMany lines)
    exact congrArg (s.update file) (funext hset)
  | e :: rest, s => by
    by_cases he : e.file = file
    · -- the entry of `e` is made first, and from then on the lines of its file can be added before the other entries
      have hmem : file ∈ (s.insertMany file e.lines.toList).files := mem_files_insertMany s file _
      have htwice : s.insertMany file (e.lines.insertMany lines).toList
          = (s.insertMany file e.lines.toList).insertMany file lines := by
        unfold insertMany update
        rw [updateEntries_same]
        exact congrArg (fun c => (⟨updateEntries file c s.entries⟩ : Selection))
          (funext fun x => x.insertMany_toList_insertMany e.lines lines)
      rw [updateEntries, if_pos he]
      change (s.insertMany e.file (e.lines.insertMany lines).toList).addEntries rest
        = ((s.insertMany e.file e.lines.toList).addEntries rest).insertMany file lines
      rw [he, htwice, addEntries_insertMany rest hmem]
    · rw [updateEntries, if_neg he]
      exact addEntries_updateEntries file lines rest (s.insertMany e.file e.lines.toList)

/-- **Adding lines to the second half of a union is adding them to the union.** -/
theorem union_insertMany (s t : Selection) (file : String) (lines : List UInt32) :
    s.union (t.insertMany file lines) = (s.union t).insertMany file lines :=
  addEntries_updateEntries file lines t.entries s

@[simp] theorem union_empty (s : Selection) : s.union ∅ = s := rfl

end Selection
end SourceSlice
