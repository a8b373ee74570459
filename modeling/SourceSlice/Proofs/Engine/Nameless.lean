import SourceSlice.Proofs.Engine.Concatenation
import SourceSlice.Proofs.Engine.Grammar
import SourceSlice.Proofs.Selection.Attribution
/-!
# Reports with lines that name no file

Complete lines without a file's name may be put before the lines of a report or between them (`Interspersed`).  The
selection then has the same entries with a name, and a faulty report keeps its fault: reading turns concatenation into
union, and what is put in adds nothing but nameless entries (`Interspersed.attributed_parse`).
-/
namespace SourceSlice.Report

variable {report padded x y block : String}

/-- **Complete lines that name no file**: they are blank, or their file is empty and all their fields are good. -/
structure Nameless (block : String) : Prop where
  complete : Complete block
  records : ∀ records, Records block.toList records → ∀ r ∈ records, r.file = [] ∧ r.Good

theorem nameless_of_reads (hcomplete : Complete block)
    (hreads : ∀ r ∈ ((lines block.toList).filter fun line => !line.all Text.isBlank).map recordOf,
      r.file = [] ∧ ∀ field ∈ r.fields, (LineNumber.parseField? field).isSome = true) : Nameless block where
  complete := hcomplete
  records records hrecords r hr := by
    rw [records_iff.1 hrecords] at hr
    obtain ⟨hfile, hfields⟩ := hreads r hr
    refine ⟨hfile, fun field hfield => ?_⟩
    obtain ⟨l, hl⟩ := Option.isSome_iff_exists.1 (hfields field hfield)
    exact ⟨l.val, parseField?_eq_some_iff.1 hl⟩

/-- **A report with nameless lines put before its lines or between them**, at any places and any number of times. -/
inductive Interspersed (report : String) : String → Prop
  | same : Interspersed report report
  | put {x y block : String} : Interspersed report (x ++ y) → Complete x → Nameless block →
    Interspersed report (x ++ block ++ y)

theorem Complete.append (hx : Complete x) (hy : Complete y) : Complete (x ++ y) := by
  rcases hy with rfl | hlast
  · rwa [String.append_empty]
  · exact .inr (by rw [String.toList_append, List.getLast?_append, hlast]; rfl)

theorem Nameless.parse_eq_ok (h : Nameless block) : ∃ s, parse block = .ok s ∧ s.attributed = ∅ := by
  have hrecords := h.records _ (records_iff.2 rfl)
  obtain ⟨s, hs, hlists⟩ := addLines_of_good lists_empty fun r hr => (hrecords r hr).2
  refine ⟨s, hs, Selection.attributed_eq_empty fun file hfile => ?_⟩
  rw [hlists.files, List.mem_eraseDups] at hfile
  obtain ⟨r, hr, rfl⟩ := List.mem_map.1 hfile
  rw [(hrecords r hr).1]

theorem attributed_parse_put (hx : Complete x) (hblock : Nameless block) :
    (parse (x ++ block ++ y)).map (·.attributed) = (parse (x ++ y)).map (·.attributed) := by
  obtain ⟨u, hu, hnone⟩ := hblock.parse_eq_ok
  rw [parse_append_eq_bind (hx.append hblock.complete), parse_append_eq_bind hx, parse_append_eq_bind hx, hu]
  cases parse x with
  | error fault => rfl
  | ok s => cases parse y with
    | error fault => rfl
    | ok t =>
      change Except.ok ((s.union u).union t).attributed = Except.ok (s.union t).attributed
      rw [Selection.attributed_union, Selection.attributed_union, hnone, Selection.union_empty,
        Selection.attributed_union]

/-- **Nameless lines change nothing but nameless entries**, and no fault. -/
theorem Interspersed.attributed_parse (h : Interspersed report padded) :
    (parse padded).map (·.attributed) = (parse report).map (·.attributed) := by
  induction h with
  | same => rfl
  | put _ hx hblock ih => exact (attributed_parse_put hx hblock).trans ih

end SourceSlice.Report
