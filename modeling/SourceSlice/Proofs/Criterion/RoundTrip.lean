import SourceSlice.Proofs.Criterion.Grammar
import SourceSlice.Proofs.Criterion.Key
/-!
# Composite texts and criteria

A criterion's key is one of the texts that denote it, and among them the one without zeros before its number
(`key_of_denotes`).  So reading a text, writing the key and reading that gives the criterion again, and a criterion
whose key can be taken apart is read back from it (`ofKey_key`): `composite_roundTrip`.
-/
namespace SourceSlice

open Text

namespace LineNumber

theorem digitChar_of_isDigit {c : Char} (h : c.isDigit = true) :
    c.toNat - '0'.toNat < 10 ∧ (c.toNat - '0'.toNat).digitChar = c := by
  simp only [Char.isDigit, Bool.and_eq_true, decide_eq_true_eq] at h
  have hlow : '0'.toNat ≤ c.toNat := h.1
  have hhigh : c.toNat ≤ 57 := h.2
  have hzero : '0'.toNat = 48 := rfl
  have hlt : c.toNat - '0'.toNat < 10 := by omega
  refine ⟨hlt, Char.toNat_inj.1 ?_⟩
  rw [Nat.toNat_digitChar_of_lt_ten hlt]
  omega

theorem toDigits_ofDigitChars : ∀ {s : List Char}, (∀ c ∈ s, c.isDigit = true) → ∀ {n : Nat}, 0 < n →
    Nat.toDigits 10 (Nat.ofDigitChars 10 s n) = Nat.toDigits 10 n ++ s
  | [], _, n, _ => by rw [Nat.ofDigitChars_nil, List.append_nil]
  | c :: s, h, n, hn => by
    obtain ⟨hc, hs⟩ := List.forall_mem_cons.1 h
    obtain ⟨hlt, hchar⟩ := digitChar_of_isDigit hc
    have hstep := Nat.toDigits_append_toDigits (by decide : 1 < 10) hn hlt
    rw [Nat.toDigits_of_lt_base hlt, hchar] at hstep
    rw [Nat.ofDigitChars_cons, toDigits_ofDigitChars hs (by omega), ← hstep, List.append_assoc, List.singleton_append]

theorem toDigits_value : ∀ {s : List Char}, (∀ c ∈ s, c.isDigit = true) → 0 < value s →
    Nat.toDigits 10 (value s) = s.dropWhile (· = '0')
  | [], _, hpos => absurd hpos (by decide)
  | c :: s, h, hpos => by
    obtain ⟨hc, hs⟩ := List.forall_mem_cons.1 h
    obtain ⟨hlt, hchar⟩ := digitChar_of_isDigit hc
    have hvalue : value (c :: s) = Nat.ofDigitChars 10 s (c.toNat - '0'.toNat) := by
      rw [value, Nat.ofDigitChars_cons, Nat.mul_zero, Nat.zero_add]
    by_cases hzero : c = '0'
    · subst hzero
      rw [hvalue] at hpos
      rw [hvalue, List.dropWhile_cons_of_pos (by simp)]
      exact toDigits_value hs hpos
    · have hne : 0 < c.toNat - '0'.toNat := by
        rw [Nat.pos_iff_ne_zero]
        intro hn
        rw [hn] at hchar
        exact hzero hchar.symm
      rw [List.dropWhile_cons_of_neg (by simpa using hzero), hvalue, toDigits_ofDigitChars hs hne,
        Nat.toDigits_of_lt_base hlt, hchar, List.singleton_append]

end LineNumber

namespace Criterion

variable {s entryPoint : String} {c : Criterion}

theorem ofKey_key (h : c.Unambiguous) (hfile : c.file.text ≠ "") (hvarname : c.varname ≠ "")
    (hdirection : c.direction = .backward) : ofKey c.key c.entryPoint = .ok c := by
  have hfile' : c.file.text.toList ≠ [] := fun he => hfile (String.toList_eq_nil_iff.1 he)
  have hvarname' : c.varname.toList ≠ [] := fun he => hvarname (String.toList_eq_nil_iff.1 he)
  have hfunction : (some (c.function.getD "")).filter (· ≠ "") = c.function := by
    cases hf : c.function with
    | none => rfl
    | some f => exact Option.filter_some_pos (by simpa using (h.function f hf).1)
  rw [ofKey, cut?_key h]
  dsimp only
  rw [if_neg hfile', LineNumber.parse?_digits]
  dsimp only
  rw [variableName?_eq_some_iff.2 ⟨rfl, hvarname'⟩]
  dsimp only
  simp only [within, String.ofList_toList, hfunction]
  rw [← hdirection]

theorem unambiguous_of_denotes (h : Denotes s entryPoint c) : c.Unambiguous := by
  obtain @⟨p, line, name, hcut, -, -, -, -, -⟩ := h
  refine ⟨by simpa using hcut.file, fun f hf => ?_⟩
  dsimp only at hf
  split at hf
  next => cases hf
  next hfunction =>
    cases hf
    refine ⟨fun he => hfunction ?_, by simpa using hcut.function⟩
    simpa using congrArg String.toList he

theorem key_of_denotes (h : Denotes s entryPoint c) : ∃ p : Parts, p.CutOf s.toList ∧
    c.key = String.ofList ({ p with line := p.line.dropWhile (· = '0') } : Parts).text := by
  obtain @⟨p, line, name, hcut, -, hline, hvalue, hrest, -⟩ := h
  refine ⟨p, hcut, String.toList_injective ?_⟩
  have hdigits : line.digits = p.line.dropWhile (· = '0') := by
    rw [LineNumber.digits, hvalue, LineNumber.toDigits_value hline.digits hline.range.1]
  have hfunction : ((if p.function = [] then none else some (String.ofList p.function)).getD "").toList
      = p.function := by
    split
    next hempty => rw [hempty]; rfl
    next => simp
  rw [toList_key, hdigits, String.toList_ofList, Parts.text, hrest]
  dsimp only
  rw [hfunction, String.toList_ofList, String.toList_ofList]

theorem ofKey_key_of_denotes (h : Denotes s entryPoint c) : ofKey c.key entryPoint = .ok c := by
  have hc := unambiguous_of_denotes h
  obtain @⟨p, line, name, hcut, hfile, -, -, -, hne⟩ := h
  refine ofKey_key hc (fun he => hfile ?_) (fun he => hne ?_) rfl
  · simpa using congrArg String.toList he
  · simpa using congrArg String.toList he

/-- **Composite texts and criteria belong to each other.**  The key of a criterion that was read is the text it was
read from without the zeros before its number, and it is read as the same criterion; and each criterion for a slice
backward, with a file and a variable that are named and no `#` in its file and its function, is read back from its key
as it is, the spelling of its file too. -/
theorem composite_roundTrip :
    (∀ (s entryPoint : String) (c : Criterion), ofKey s entryPoint = .ok c →
      (∃ p : Parts, p.CutOf s.toList ∧
        c.key = String.ofList ({ p with line := p.line.dropWhile (· = '0') } : Parts).text) ∧
      ofKey c.key entryPoint = .ok c) ∧
    ∀ (file varname entryPoint : String) (line : LineNumber) (function : Option String),
      file ≠ "" → '#' ∉ file.toList → (∀ f ∈ function, '#' ∉ f.toList) → varname ≠ "" →
      let c := ({ file := ⟨file⟩, line, varname, entryPoint } : Criterion).within function
      ofKey c.key c.entryPoint = .ok c := by
  refine ⟨fun s entryPoint c h => ?_, fun file varname entryPoint line function hfile hhash hfunction hvarname => ?_⟩
  · have hdenotes := ofKey_eq_ok_iff.1 h
    exact ⟨key_of_denotes hdenotes, ofKey_key_of_denotes hdenotes⟩
  · refine ofKey_key ⟨hhash, fun f hf => ?_⟩ hfile hvarname rfl
    obtain ⟨hsome, hne⟩ := Option.filter_eq_some_iff.1 (Option.mem_def.1 hf)
    exact ⟨by simpa using hne, hfunction f hsome⟩

/-- A text with zeros before its number, no function and both separators in its variable; and a criterion whose file is
spelled with a slash too many and whose function is cleared by an empty name. -/
theorem composite_roundTrip_spelled :
    let read : Criterion := ⟨⟨"src/a.c"⟩, ⟨7, by decide⟩, "v#&w", "main", none, .backward⟩
    let built : Criterion := ⟨⟨"src//a.c"⟩, ⟨4294967295, by decide⟩, "#", "go", none, .backward⟩
    ofKey "src/a.c##007#&v#&w" "main" = .ok read ∧
      (∃ p : Parts, p.CutOf "src/a.c##007#&v#&w".toList ∧
        read.key = String.ofList ({ p with line := p.line.dropWhile (· = '0') } : Parts).text) ∧
      ofKey read.key "main" = .ok read ∧ ofKey built.key "go" = .ok built := by
  intro read built
  have hread : ofKey "src/a.c##007#&v#&w" "main" = .ok read := by rfl
  obtain ⟨hkey, hagain⟩ := composite_roundTrip.1 _ _ _ hread
  refine ⟨hread, hkey, hagain, ?_⟩
  exact composite_roundTrip.2 "src//a.c" "#" "go" ⟨4294967295, by decide⟩ (some "") (by decide) (by decide)
    (by rintro f hf; cases hf; decide) (by decide)

end Criterion
end SourceSlice
