import SourceSlice.Proofs.Criterion.Grammar
import SourceSlice.Proofs.Engine.Writing
/-!
# The two readers of line numbers

A criterion's line is looked at digit by digit before it is read; a field of a report is trimmed and given to the reader
of integers as it is.  `readers_agree` says what the first of them takes, for digits of any number, and that the second
takes from each field of a line what the first does from the field without its blanks and its sign.
-/
namespace SourceSlice

open Text

def Report.taken (line field : List Char) : Except Fault UInt32 :=
  match LineNumber.parse? (LineNumber.dropPlus (trim field)) with
  | some n => .ok n.val
  | none => .error ⟨String.ofList line, String.ofList field⟩

namespace Report

theorem numbers_eq_mapM (line : List Char) : ∀ fields : List (List Char), numbers line fields = fields.mapM (taken line)
  | [] => rfl
  | field :: fields => by
    rw [numbers, List.mapM_cons, numbers_eq_mapM line fields, taken, LineNumber.parseField?_eq]
    cases LineNumber.parse? (LineNumber.dropPlus (trim field)) with
    | none => rfl
    | some n => cases fields.mapM (taken line) <;> rfl

theorem parse_line {file : List Char} {fields : List (List Char)}
    (hpieces : ∀ piece ∈ file :: fields, ',' ∉ piece ∧ '\n' ∉ piece) (hfields : fields ≠ []) :
    let line := joinWith ',' (file :: fields)
    parse (String.ofList line)
      = (fields.mapM (taken line)).map fun ns => ⟨[⟨String.ofList file, .ofList ns⟩]⟩ := by
  intro line
  have hsplit : splitOn ',' line = file :: fields :=
    splitOn_joinWith (List.cons_ne_nil _ _) fun piece hpiece => (hpieces piece hpiece).1
  have hone : lines line = [line] := by
    refine inLines_iff.1 (.last fun hmem => ?_)
    rcases mem_joinWith hmem with hcomma | ⟨piece, hpiece, hmem⟩
    · exact absurd hcomma (by decide)
    · exact (hpieces piece hpiece).2 hmem
  -- the comma after the file keeps the line from being blank
  have hsolid : line.all isBlank = false := by
    obtain ⟨field, rest, rfl⟩ := List.exists_cons_of_ne_nil hfields
    exact List.all_eq_false.2 ⟨',', List.mem_append_right _ List.mem_cons_self, by decide⟩
  have hrecord : recordOf line = ⟨line, file, fields⟩ := by
    rw [recordOf, hsplit]
    rfl
  rw [parse, String.toList_ofList, hone, addLines, addLine_of_not_blank ∅ hsolid, hrecord, numbers_eq_mapM]
  cases fields.mapM (taken line) <;> rfl

end Report

namespace LineNumber

/-- **The two readers agree up to blanks and sign.**  A criterion's line is read exactly when it is a numeral in range,
however long, and then as its value.  A field of a report is read as what it is without the blanks around it and one
plus sign before it; so a line of a report gives the numbers of its fields, or names the first of them that has none. -/
theorem readers_agree :
    (∀ (s : List Char) (n : Nat), (∃ l, parse? s = some l ∧ l.toNat = n) ↔
      s ≠ [] ∧ (∀ c ∈ s, c.isDigit = true) ∧ value s = n ∧ 1 ≤ n ∧ n ≤ 4294967295) ∧
    (∀ s : List Char, parse? s = none ↔ ¬ Decimal s) ∧
    (∀ field : List Char, parseField? field = parse? (dropPlus (trim field))) ∧
    ∀ (file : List Char) (fields : List (List Char)), (∀ piece ∈ file :: fields, ',' ∉ piece ∧ '\n' ∉ piece) →
      fields ≠ [] →
      selectionOf (String.ofList (joinWith ',' (file :: fields)))
        = ((fields.mapM (Report.taken (joinWith ',' (file :: fields)))).map fun ns =>
            (⟨[⟨String.ofList file, .ofList ns⟩]⟩ : Selection)).mapError .malformedReport := by
  refine ⟨fun s n => ⟨?_, ?_⟩, fun s => parse?_eq_none_iff, parseField?_eq, fun file fields hpieces hfields => ?_⟩
  · rintro ⟨l, hl, rfl⟩
    obtain ⟨hdecimal, hvalue⟩ := decimal_of_parse? hl
    rw [hvalue]
    exact ⟨hdecimal.ne_nil, hdecimal.digits, rfl, hdecimal.range⟩
  · rintro ⟨hne, hdigits, rfl, hrange⟩
    exact exists_parse?_of_decimal ⟨hne, hdigits, hrange⟩
  · rw [selectionOf, Report.parse_line hpieces hfields]

/-- Fields with blanks, a sign and zeros up to the greatest number, and one that is greater by one. -/
theorem readers_agree_at_greatest :
    let fields := ["\u3000+0042 ".toList, "4294967295\t".toList, "4294967296".toList]
    (∀ piece ∈ "a.c".toList :: fields, ',' ∉ piece ∧ '\n' ∉ piece) ∧ fields ≠ [] ∧
      selectionOf "a.c,\u3000+0042 ,4294967295\t,4294967296"
        = .error (.malformedReport ⟨"a.c,\u3000+0042 ,4294967295\t,4294967296", "4294967296"⟩) := by
  intro fields
  have hpieces : ∀ piece ∈ "a.c".toList :: fields, ',' ∉ piece ∧ '\n' ∉ piece := by decide
  have hfields : fields ≠ [] := List.cons_ne_nil _ _
  exact ⟨hpieces, hfields, (readers_agree.2.2.2 _ _ hpieces hfields).trans (by rfl)⟩

example : parse? "000000000007".toList = some ⟨7, by decide⟩ ∧ parse? "+7".toList = none := by decide

end LineNumber
end SourceSlice
