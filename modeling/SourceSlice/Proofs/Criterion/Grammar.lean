import SourceSlice.Batch.Slicer
/-!
# The grammar of composite criteria

What a composite text may say, apart from how it is read.  It has four parts, which end at its first three `#`
(`Parts.CutOf`); the file has a name, the line is a numeral in range, and what is left is a `&` with a name behind it.
A text that keeps these rules denotes one criterion (`Denotes`), and of the rules that any other text breaks one is the
first (`Breaks`).  Reading gives the one or reports the other (`ofKey_exact`), and a run that is given a text of the
second kind ends before it has changed anything.
-/
namespace SourceSlice

open Text

namespace LineNumber

def value (digits : List Char) : Nat := Nat.ofDigitChars 10 digits 0

/-- **A numeral in range**: one digit or more, any number of zeros first. -/
structure Decimal (s : List Char) : Prop where
  ne_nil : s ≠ []
  digits : ∀ c ∈ s, c.isDigit = true
  range : 1 ≤ value s ∧ value s ≤ greatest

theorem exists_parse?_of_decimal {s : List Char} (h : Decimal s) : ∃ l, parse? s = some l ∧ l.toNat = value s := by
  obtain ⟨l, hl⟩ := Option.isSome_iff_exists.1 (ofNat?_isSome_iff.2 h.range)
  have hvalue := toNat_ofNat? hl
  exact ⟨l, parse?_eq_some_iff.2 ⟨h.ne_nil, List.all_eq_true.2 h.digits, hvalue.symm⟩, hvalue⟩

theorem decimal_of_parse? {s : List Char} {l : LineNumber} (h : parse? s = some l) :
    Decimal s ∧ l.toNat = value s := by
  obtain ⟨hne, hdigits, hvalue⟩ := parse?_eq_some_iff.1 h
  have hrange := ofNat?_isSome_iff.1 (Option.isSome_iff_exists.2 ⟨l, ofNat?_toNat l⟩)
  rw [← hvalue] at hrange
  exact ⟨⟨hne, List.all_eq_true.1 hdigits, hrange⟩, hvalue.symm⟩

theorem parse?_eq_none_iff {s : List Char} : parse? s = none ↔ ¬ Decimal s := by
  constructor
  · intro hnone hs
    obtain ⟨l, hl, -⟩ := exists_parse?_of_decimal hs
    rw [hnone] at hl
    cases hl
  · intro hs
    cases hl : parse? s with
    | none => rfl
    | some l => exact absurd (decimal_of_parse? hl).1 hs

end LineNumber

open LineNumber (Decimal value)

namespace Criterion

/-! ## The parts of a text -/

/-- The four parts of a composite text; what is left after the third `#` is the last one. -/
structure Parts where
  file : List Char
  function : List Char
  line : List Char
  rest : List Char

namespace Parts

def text (p : Parts) : List Char := p.file ++ '#' :: (p.function ++ '#' :: (p.line ++ '#' :: p.rest))

/-- **The parts of a text that is cut at its first three `#`.** -/
structure CutOf (p : Parts) (s : List Char) : Prop where
  text : p.text = s
  file : '#' ∉ p.file
  function : '#' ∉ p.function
  line : '#' ∉ p.line

end Parts

variable {p : Parts} {s entryPoint : String}

theorem count_of_cutAt {l a b : List Char} (h : cutAt '#' l = some (a, b)) : l.count '#' = b.count '#' + 1 := by
  obtain ⟨rfl, ha⟩ := cutAt_eq_some h
  rw [List.count_append, List.count_eq_zero_of_not_mem ha, List.count_cons_self, Nat.zero_add]

theorem count_of_cutAt_none {l : List Char} (h : cutAt '#' l = none) : l.count '#' = 0 :=
  List.count_eq_zero_of_not_mem (cutAt_eq_none_iff.1 h)

theorem cut?_of_cutOf {l : List Char} (h : p.CutOf l) : cut? l = some (p.file, p.function, p.line, p.rest) := by
  rw [cut?, ← h.text, Parts.text, cutAt_append h.file]
  simp only [Option.bind_eq_bind, Option.bind_some, cutAt_append h.function, cutAt_append h.line]
  rfl

theorem cutOf_of_cut? {l file function line rest : List Char} (h : cut? l = some (file, function, line, rest)) :
    (⟨file, function, line, rest⟩ : Parts).CutOf l := by
  simp only [cut?, Option.bind_eq_bind, Option.bind_eq_some_iff, Option.pure_def, Option.some.injEq] at h
  obtain ⟨⟨_, afterFile⟩, hfile, ⟨_, afterFunction⟩, hfunction, ⟨_, _⟩, hline, heq⟩ := h
  cases heq
  obtain ⟨rfl, hnoneInFile⟩ := cutAt_eq_some hfile
  obtain ⟨rfl, hnoneInFunction⟩ := cutAt_eq_some hfunction
  obtain ⟨rfl, hnoneInLine⟩ := cutAt_eq_some hline
  exact ⟨rfl, hnoneInFile, hnoneInFunction, hnoneInLine⟩

theorem count_lt_three_of_cut? {l : List Char} (h : cut? l = none) : l.count '#' < 3 := by
  cases hfile : cutAt '#' l with
  | none =>
    rw [count_of_cutAt_none hfile]
    decide
  | some cut =>
    obtain ⟨file, afterFile⟩ := cut
    rw [count_of_cutAt hfile]
    cases hfunction : cutAt '#' afterFile with
    | none =>
      rw [count_of_cutAt_none hfunction]
      decide
    | some cut =>
      obtain ⟨function, afterFunction⟩ := cut
      rw [count_of_cutAt hfunction]
      cases hline : cutAt '#' afterFunction with
      | none =>
        rw [count_of_cutAt_none hline]
        decide
      | some cut =>
        simp only [cut?, hfile, hfunction, hline, Option.bind_eq_bind, Option.bind_some] at h
        cases h

theorem Parts.CutOf.three_le_count {l : List Char} (h : p.CutOf l) : 3 ≤ l.count '#' := by
  rw [← h.text]
  simp only [Parts.text, List.count_append, List.count_cons_self]
  omega

theorem exists_cutOf_iff {l : List Char} : (∃ p : Parts, p.CutOf l) ↔ 3 ≤ l.count '#' := by
  refine ⟨fun ⟨p, hp⟩ => hp.three_le_count, fun hcount => ?_⟩
  cases hcut : cut? l with
  | none => exact absurd (count_lt_three_of_cut? hcut) (Nat.not_lt.2 hcount)
  | some parts => exact ⟨_, cutOf_of_cut? hcut⟩

theorem variableName?_eq_some_iff {rest name : List Char} :
    variableName? rest = some name ↔ rest = '&' :: name ∧ name ≠ [] := by
  unfold variableName?
  split
  next c tail =>
    constructor
    · rintro h
      cases h
      exact ⟨rfl, List.cons_ne_nil _ _⟩
    · rintro ⟨h, -⟩
      cases h
      rfl
  next hno =>
    refine ⟨nofun, ?_⟩
    rintro ⟨rfl, hne⟩
    obtain ⟨c, tail, rfl⟩ := List.exists_cons_of_ne_nil hne
    exact absurd rfl (hno c tail)

/-! ## What a text denotes -/

/-- **The first rule that a composite text breaks.** -/
inductive Breaks (s : String) : CriterionError → Prop
  | shape : s.toList.count '#' < 3 → Breaks s (.shape s)
  | emptyFile {p : Parts} : p.CutOf s.toList → p.file = [] → Breaks s (.emptyFile s)
  | line {p : Parts} : p.CutOf s.toList → p.file ≠ [] → ¬ Decimal p.line → Breaks s (.line s (String.ofList p.line))
  | varname {p : Parts} : p.CutOf s.toList → p.file ≠ [] → Decimal p.line →
    (¬ ∃ name, p.rest = '&' :: name ∧ name ≠ []) → Breaks s (.varname s)

/-- **The criterion that a composite text denotes**: a slice backward, in a function when the second part names one.
The variable is all that stands after the `&`, a `#` or another `&` in it too. -/
inductive Denotes (s entryPoint : String) : Criterion → Prop
  | criterion {p : Parts} {line : LineNumber} {name : List Char} : p.CutOf s.toList → p.file ≠ [] → Decimal p.line →
    line.toNat = value p.line → p.rest = '&' :: name → name ≠ [] →
    Denotes s entryPoint
      { file := ⟨String.ofList p.file⟩
        line
        varname := String.ofList name
        entryPoint
        function := if p.function = [] then none else some (String.ofList p.function)
        direction := .backward }

theorem denotes_or_breaks (s entryPoint : String) : (∃ c, Denotes s entryPoint c) ∨ ∃ error, Breaks s error := by
  by_cases hcount : s.toList.count '#' < 3
  · exact .inr ⟨_, .shape hcount⟩
  obtain ⟨p, hcut⟩ := exists_cutOf_iff.2 (Nat.le_of_not_lt hcount)
  by_cases hfile : p.file = []
  · exact .inr ⟨_, .emptyFile hcut hfile⟩
  by_cases hline : Decimal p.line
  · obtain ⟨l, -, hl⟩ := LineNumber.exists_parse?_of_decimal hline
    by_cases hrest : ∃ name, p.rest = '&' :: name ∧ name ≠ []
    · obtain ⟨name, hname, hne⟩ := hrest
      exact .inl ⟨_, .criterion hcut hfile hline hl hname hne⟩
    · exact .inr ⟨_, .varname hcut hfile hline hrest⟩
  · exact .inr ⟨_, .line hcut hfile hline⟩

theorem ofKey_of_breaks {error : CriterionError} (h : Breaks s error) : ofKey s entryPoint = .error error := by
  cases h with
  | shape hcount =>
    cases hcut : cut? s.toList with
    | none => rw [ofKey, hcut]
    | some parts => exact absurd hcount (Nat.not_lt.2 (cutOf_of_cut? hcut).three_le_count)
  | emptyFile hcut hfile => rw [ofKey, cut?_of_cutOf hcut]; exact if_pos hfile
  | line hcut hfile hline =>
    rw [ofKey, cut?_of_cutOf hcut]
    dsimp only
    rw [if_neg hfile, LineNumber.parse?_eq_none_iff.2 hline]
  | @varname p hcut hfile hline hrest =>
    obtain ⟨l, hl, -⟩ := LineNumber.exists_parse?_of_decimal hline
    have hname : variableName? p.rest = none :=
      Option.eq_none_iff_forall_ne_some.2 fun name h => hrest ⟨name, variableName?_eq_some_iff.1 h⟩
    rw [ofKey, cut?_of_cutOf hcut]
    dsimp only
    rw [if_neg hfile, hl]
    dsimp only
    rw [hname]

theorem ofKey_of_denotes {c : Criterion} (h : Denotes s entryPoint c) : ofKey s entryPoint = .ok c := by
  obtain @⟨p, line, name, hcut, hfile, hline, hvalue, hrest, hne⟩ := h
  obtain ⟨l, hl, hlvalue⟩ := LineNumber.exists_parse?_of_decimal hline
  obtain rfl : l = line := LineNumber.toNat_injective (hlvalue.trans hvalue.symm)
  have hfunction : (some (String.ofList p.function)).filter (· ≠ "")
      = if p.function = [] then none else some (String.ofList p.function) := by
    by_cases hempty : p.function = []
    · rw [if_pos hempty, hempty]
      rfl
    · rw [if_neg hempty]
      exact Option.filter_some_pos (by simpa using hempty)
  rw [ofKey, cut?_of_cutOf hcut]
  dsimp only
  rw [if_neg hfile, hl]
  dsimp only
  rw [variableName?_eq_some_iff.2 ⟨hrest, hne⟩]
  dsimp only
  rw [within, hfunction]

theorem ofKey_eq_ok_iff {c : Criterion} : ofKey s entryPoint = .ok c ↔ Denotes s entryPoint c := by
  refine ⟨fun h => ?_, ofKey_of_denotes⟩
  rcases denotes_or_breaks s entryPoint with ⟨b, hb⟩ | ⟨error, hbreaks⟩
  · rw [ofKey_of_denotes hb] at h
    exact Except.ok.inj h ▸ hb
  · rw [ofKey_of_breaks hbreaks] at h
    cases h

theorem ofKey_eq_error_iff {error : CriterionError} : ofKey s entryPoint = .error error ↔ Breaks s error := by
  refine ⟨fun h => ?_, ofKey_of_breaks⟩
  rcases denotes_or_breaks s entryPoint with ⟨b, hb⟩ | ⟨first, hbreaks⟩
  · rw [ofKey_of_denotes hb] at h
    cases h
  · rw [ofKey_of_breaks hbreaks] at h
    exact Except.error.inj h ▸ hbreaks

end Criterion

theorem Slicer.run_adHoc_of_error {σ : Type} (slicer : Slicer σ) (files : FileSystem) {s entryPoint : String}
    {error : CriterionError} (h : Criterion.ofKey s entryPoint = .error error) (session : Session σ) :
    slicer.run files (.adHoc s entryPoint) session = .error (.invalidInvocation (.criterion error)) session := by
  rw [run, h]
  rfl

namespace Criterion

/-- **A composite text is read exactly when it is in the grammar, and else the first rule that it breaks is reported.**
As the input of a run a text that breaks a rule ends it with that fault: the engine is not called and nothing is kept
or forgotten. -/
theorem ofKey_exact (s entryPoint : String) :
    (∀ c, ofKey s entryPoint = .ok c ↔ Denotes s entryPoint c) ∧
    (∀ error, ofKey s entryPoint = .error error ↔ Breaks s error) ∧
    ((∃ c, Denotes s entryPoint c) ∨ ∃ error, Breaks s error) ∧
    ∀ error, Breaks s error → ∀ {σ : Type} (slicer : Slicer σ) (files : FileSystem) (session : Session σ),
      slicer.run files (.adHoc s entryPoint) session = .error (.invalidInvocation (.criterion error)) session :=
  ⟨fun _ => ofKey_eq_ok_iff, fun _ => ofKey_eq_error_iff, denotes_or_breaks s entryPoint,
    fun _ h _ slicer files session => slicer.run_adHoc_of_error files (ofKey_of_breaks h) session⟩

/-- A text with three faults, of which the empty file is the first; and one without, with zeros before its number and
both separators in its variable. -/
theorem ofKey_exact_three_faults :
    let slicer : Slicer Unit := ⟨fun _ s => (.ok "", s), ⟨"a.bc"⟩, .bidirectional, ⟨false⟩⟩
    let error : CriterionError := .emptyFile "#f#0#x"
    Breaks "#f#0#x" error ∧
      slicer.run ⟨[], []⟩ (.adHoc "#f#0#x" "main") (.start ())
        = .error (.invalidInvocation (.criterion error)) (.start ()) ∧
      ofKey "a.c##0042#&v#&w" "main" = .ok ⟨⟨"a.c"⟩, ⟨42, by decide⟩, "v#&w", "main", none, .backward⟩ := by
  intro slicer error
  obtain ⟨-, -, -, hrun⟩ := ofKey_exact "#f#0#x" "main"
  obtain ⟨hread, -⟩ := ofKey_exact "a.c##0042#&v#&w" "main"
  have hbreaks : Breaks "#f#0#x" error :=
    .emptyFile (p := ⟨[], ['f'], ['0'], ['x']⟩) ⟨rfl, by decide, by decide, by decide⟩ rfl
  refine ⟨hbreaks, hrun error hbreaks slicer _ _, (hread _).2 ?_⟩
  have hrest : ['&', 'v', '#', '&', 'w'] = '&' :: ['v', '#', '&', 'w'] := rfl
  exact .criterion (p := ⟨['a', '.', 'c'], [], ['0', '0', '4', '2'], ['&', 'v', '#', '&', 'w']⟩)
    ⟨rfl, by decide, by decide, by decide⟩ (by decide) ⟨by decide, by simp, by decide⟩ (by decide) hrest (by decide)

end Criterion
end SourceSlice
