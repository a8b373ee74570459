import SourceSlice.Excerpt
import SourceSlice.Proofs.Selection.Union
/-!
# Lines that belong to no file

The entries without a file's name stand among the others, have places in their order and are changed like them.  Taking
them out commutes with every change (`attributed_insertMany`) and so with unions (`attributed_union`), and an excerpt
does not see them (`excerpt_attributed`).
-/
namespace SourceSlice.Selection

variable {s t : Selection} {e : Entry} {rest : List Entry} {file : String}

theorem filter_cons_nameless (he : e.file = "") : (e :: rest).filter (·.file ≠ "") = rest.filter (·.file ≠ "") :=
  List.filter_cons_of_neg (by simpa using he)

theorem filter_cons_named (he : e.file ≠ "") : (e :: rest).filter (·.file ≠ "") = e :: rest.filter (·.file ≠ "") :=
  List.filter_cons_of_pos (by simpa using he)

/-! ## Taking the nameless entries out -/

/-- Exactly the entries without a name go; those with one keep their order, and how often they occur. -/
structure NamelessDropped (s kept : Selection) : Prop where
  ordered : kept.entries.Sublist s.entries
  count : ∀ e, kept.entries.count e = if e.file = "" then 0 else s.entries.count e

theorem namelessDropped_attributed (s : Selection) : NamelessDropped s s.attributed where
  ordered := List.filter_sublist
  count e := by
    rw [attributed]
    split
    next he => exact List.count_eq_zero_of_not_mem fun hmem => by simpa [he] using (List.mem_filter.1 hmem).2
    next he => exact List.count_filter (by simpa using he)

theorem attributed_attributed (s : Selection) : s.attributed.attributed = s.attributed := by
  rw [attributed, attributed, List.filter_filter]
  simp only [Bool.and_self]

theorem attributed_eq_empty (h : ∀ g ∈ s.files, g = "") : s.attributed = ∅ :=
  congrArg mk <| List.filter_eq_nil_iff.2 fun e he => by simpa using h e.file (List.mem_map_of_mem he)

/-! ## Changes and unions -/

theorem filter_updateEntries_nameless (change : LineSet → LineSet) : ∀ l : List Entry,
    (updateEntries "" change l).filter (·.file ≠ "") = l.filter (·.file ≠ "")
  | [] => rfl
  | e :: rest => by
    by_cases he : e.file = ""
    · rw [updateEntries, if_pos he, filter_cons_nameless (by exact he), filter_cons_nameless he]
    · rw [updateEntries, if_neg he, filter_cons_named he, filter_cons_named he,
        filter_updateEntries_nameless change rest]

theorem filter_updateEntries (hfile : file ≠ "") (change : LineSet → LineSet) : ∀ l : List Entry,
    (updateEntries file change l).filter (·.file ≠ "") = updateEntries file change (l.filter (·.file ≠ ""))
  | [] => filter_cons_named hfile
  | e :: rest => by
    by_cases he : e.file = file
    · have hnamed : e.file ≠ "" := he ▸ hfile
      rw [updateEntries, if_pos he, filter_cons_named (by exact hnamed), filter_cons_named hnamed, updateEntries,
        if_pos he]
    · have ih := filter_updateEntries hfile change rest
      rw [updateEntries, if_neg he]
      by_cases hnamed : e.file = ""
      · rw [filter_cons_nameless hnamed, filter_cons_nameless hnamed, ih]
      · rw [filter_cons_named hnamed, filter_cons_named hnamed, updateEntries, if_neg he, ih]

theorem attributed_insertMany (s : Selection) (file : String) (lines : List UInt32) :
    (s.insertMany file lines).attributed
      = if file = "" then s.attributed else s.attributed.insertMany file lines := by
  split
  next hfile =>
    subst hfile
    exact congrArg mk (filter_updateEntries_nameless _ s.entries)
  next hfile => exact congrArg mk (filter_updateEntries hfile _ s.entries)

theorem attributed_addEntries : ∀ (l : List Entry) (s : Selection),
    (s.addEntries l).attributed = s.attributed.addEntries (l.filter (·.file ≠ ""))
  | [], _ => rfl
  | e :: rest, s => by
    change ((s.insertMany e.file e.lines.toList).addEntries rest).attributed = _
    rw [attributed_addEntries rest, attributed_insertMany]
    by_cases he : e.file = ""
    · rw [if_pos he, filter_cons_nameless he]
    · rw [if_neg he, filter_cons_named he]
      rfl

/-- **Taking the nameless entries out commutes with union**, wherever they stand in either half. -/
theorem attributed_union (s t : Selection) : (s.union t).attributed = s.attributed.union t.attributed :=
  attributed_addEntries t.entries s

/-! ## Excerpts -/

theorem excerptEntries_attributed (files : FileSystem) : ∀ l : List Entry,
    excerptEntries files (l.filter (·.file ≠ "")) = excerptEntries files l
  | [] => rfl
  | e :: rest => by
    have ih := excerptEntries_attributed files rest
    by_cases he : e.file = ""
    · have hnone : e.excerpt files = .ok [] := if_pos he
      rw [filter_cons_nameless he, ih, excerptEntries, hnone]
      cases excerptEntries files rest <;> rfl
    · rw [filter_cons_named he, excerptEntries, excerptEntries, ih]

/-- **An excerpt does not see the nameless entries**, be it a text or a failure. -/
theorem excerpt_attributed (s : Selection) (files : FileSystem) : s.attributed.excerpt files = s.excerpt files := by
  rw [excerpt, excerpt, attributed, excerptEntries_attributed]

end SourceSlice.Selection
