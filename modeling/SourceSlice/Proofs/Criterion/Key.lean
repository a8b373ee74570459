import SourceSlice.Criterion
/-!
# Keys of criteria

A key is cut at its first three `#`, so it tells its criterion only when the file and the function hold none
(`key_injective`).  A criterion's slot tells less of the file and its key less of the function: `key_eq_iff_of_slot_eq`.
-/
namespace SourceSlice

open Text

namespace LineNumber

def digits (l : LineNumber) : List Char := Nat.toDigits 10 l.toNat

theorem toList_toString (l : LineNumber) : (toString l).toList = l.digits := by
  change (Nat.repr l.toNat).toList = _
  rw [Nat.repr, String.toList_ofList, digits]

theorem isDigit_of_mem_digits {l : LineNumber} {x : Char} (h : x ∈ l.digits) : x.isDigit = true :=
  Nat.isDigit_of_mem_toDigits (by decide) (by decide) h

theorem hash_not_mem_digits (l : LineNumber) : '#' ∉ l.digits := fun h => by
  have hdigit := isDigit_of_mem_digits h
  exact absurd hdigit (by decide)

theorem parse?_digits (l : LineNumber) : parse? l.digits = some l := by
  refine parse?_eq_some_iff.2 ⟨Nat.toDigits_ne_nil, List.all_eq_true.2 fun x hx => isDigit_of_mem_digits hx, ?_⟩
  exact Nat.ofDigitChars_ten_toDigits

theorem digits_injective {a b : LineNumber} (h : a.digits = b.digits) : a = b := by
  have ha := parse?_digits a
  rw [h, parse?_digits] at ha
  exact (Option.some.inj ha).symm

end LineNumber

namespace Criterion

variable {b c : Criterion}

/-- A criterion whose key can be taken apart: there is no `#` in its file or function, nor a function without a name. -/
structure Unambiguous (c : Criterion) : Prop where
  file : '#' ∉ c.file.text.toList
  function : ∀ f ∈ c.function, f ≠ "" ∧ '#' ∉ f.toList

theorem toList_key (c : Criterion) :
    c.key.toList = c.file.text.toList ++
      '#' :: ((c.function.getD "").toList ++ '#' :: (c.line.digits ++ '#' :: '&' :: c.varname.toList)) := by
  rw [key]
  simp only [String.toList_append, LineNumber.toList_toString, List.append_assoc]
  rfl

theorem Unambiguous.hash_not_mem_function (h : c.Unambiguous) : '#' ∉ (c.function.getD "").toList := by
  cases hf : c.function with
  | none => exact List.not_mem_nil
  | some f => exact (h.function f hf).2

theorem cut?_key (h : c.Unambiguous) :
    cut? c.key.toList
      = some (c.file.text.toList, (c.function.getD "").toList, c.line.digits, '&' :: c.varname.toList) := by
  rw [cut?, toList_key, cutAt_append h.file]
  simp only [Option.bind_eq_bind, Option.bind_some, cutAt_append h.hash_not_mem_function,
    cutAt_append c.line.hash_not_mem_digits]
  rfl

theorem Unambiguous.function_eq (hb : b.Unambiguous) (hc : c.Unambiguous)
    (h : b.function.getD "" = c.function.getD "") : b.function = c.function := by
  cases hfb : b.function with
  | none =>
    cases hfc : c.function with
    | none => rfl
    | some g => rw [hfb, hfc] at h; exact absurd h.symm (hc.function g hfc).1
  | some f =>
    cases hfc : c.function with
    | none => rw [hfb, hfc] at h; exact absurd h (hb.function f hfb).1
    | some g => rw [hfb, hfc] at h; exact congrArg some h

/-- **A key tells the criterion**, up to its entry point and direction. -/
theorem key_injective (hb : b.Unambiguous) (hc : c.Unambiguous) (h : b.key = c.key) :
    b.file = c.file ∧ b.function = c.function ∧ b.line = c.line ∧ b.varname = c.varname := by
  have hcut := cut?_key hb
  rw [h, cut?_key hc] at hcut
  simp only [Option.some.injEq, Prod.mk.injEq, List.cons.injEq, true_and] at hcut
  obtain ⟨hfile, hfunction, hline, hvarname⟩ := hcut
  refine ⟨?_, hb.function_eq hc (String.toList_injective hfunction).symm, (LineNumber.digits_injective hline).symm,
    (String.toList_injective hvarname).symm⟩
  cases hx : b.file; cases hy : c.file
  rw [hx, hy] at hfile
  exact congrArg Path.mk (String.toList_injective hfile).symm

/-- A file with a `#` in its name can take over what another criterion says of its function, line and variable. -/
example :
    let b : Criterion := { file := ⟨"x"⟩, line := ⟨1, by decide⟩, varname := "v##2#&w", entryPoint := "main" }
    let c : Criterion := { file := ⟨"x##1#&v"⟩, line := ⟨2, by decide⟩, varname := "w", entryPoint := "main" }
    b.key = c.key ∧ b.slot ≠ c.slot := by decide

theorem key_eq_iff_of_slot_eq (h : b.slot = c.slot) : b.key = c.key ↔ b.file = c.file := by
  have hline : b.line = c.line := congrArg Slot.line h
  have hvarname : b.varname = c.varname := congrArg Slot.varname h
  have hfunction : b.function = c.function := congrArg Slot.function h
  constructor
  · intro hkey
    have hlist := congrArg String.toList hkey
    rw [toList_key, toList_key, hline, hvarname, hfunction] at hlist
    have htext := List.append_cancel_right hlist
    cases hx : b.file; cases hy : c.file
    rw [hx, hy] at htext
    exact congrArg Path.mk (String.toList_injective htext)
  · intro hfile
    rw [key, key, hfile, hline, hvarname, hfunction]

end Criterion
end SourceSlice
