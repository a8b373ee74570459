import Mathlib.Data.List.TakeDrop
import Mathlib.Tactic.SplitIfs
import SourceSlice.Json.Parser
import SourceSlice.Json.Value
/-!
# Texts and numbers in JSON

A text is read back from its escaped form (`quotedText_escaped`), and a whole number from its digits
(`number_toString`).  A number ends before a blank, a comma or a closing bracket: before a text that `Stops` it.
-/
namespace SourceSlice.Json

/-! ## Blanks -/

theorem skipBlanks_append {gap : List Char} (h : ∀ c ∈ gap, isBlank c = true) (s : List Char) :
    skipBlanks (gap ++ s) = skipBlanks s := List.dropWhile_append_of_pos h

theorem skipBlanks_cons {c : Char} (h : isBlank c = false) (s : List Char) : skipBlanks (c :: s) = c :: s :=
  List.dropWhile_cons_of_neg (by rw [h]; exact Bool.false_ne_true)

/-! ## Quoted texts -/

theorem hexValue?_hexDigit : ∀ n < 16, hexValue? (hexDigit n) = some n := by decide

theorem escape_cases (c : Char) :
    (escape c = [c] ∧ c ≠ '"' ∧ c ≠ '\\' ∧ ¬ c.toNat < 0x20) ∨
      (∃ e, escape c = ['\\', e] ∧ e ≠ 'u' ∧ unescape? e = some c) ∨
      (escape c = ['\\', 'u', '0', '0', hexDigit (c.toNat / 16), hexDigit (c.toNat % 16)] ∧ c.toNat < 0x20) := by
  have hletter {c e : Char} (h : escape c = ['\\', e]) (hu : e ≠ 'u') (he : unescape? e = some c) :
      ∃ e, escape c = ['\\', e] ∧ e ≠ 'u' ∧ unescape? e = some c := ⟨e, h, hu, he⟩
  by_cases hnamed : c ∈ ['"', '\\', '\x08', '\x0c', '\n', '\r', '\t']
  · simp only [List.mem_cons, List.not_mem_nil, or_false] at hnamed
    rcases hnamed with rfl | rfl | rfl | rfl | rfl | rfl | rfl
    all_goals exact .inr (.inl (hletter rfl (by decide) rfl))
  · simp only [List.mem_cons, List.not_mem_nil, or_false, not_or] at hnamed
    obtain ⟨hquote, hslash, hb, hf, hn, hr, ht⟩ := hnamed
    rw [escape, if_neg hquote, if_neg hslash, if_neg hb, if_neg hf, if_neg hn, if_neg hr, if_neg ht]
    split
    next hcontrol => exact .inr (.inr ⟨rfl, hcontrol⟩)
    next hcontrol => exact .inl ⟨rfl, hquote, hslash, hcontrol⟩

theorem unitsFrom_char {c : Char} (hquote : c ≠ '"') (hslash : c ≠ '\\') (hcontrol : ¬ c.toNat < 0x20)
    (seen : List Unit16) (s : List Char) : unitsFrom seen (c :: s) = unitsFrom (.char c :: seen) s := by
  rw [unitsFrom.eq_def]
  split
  next heq => cases heq
  next heq => exact absurd (List.cons.inj heq).1 hquote
  next heq => exact absurd (List.cons.inj heq).1 hslash
  next heq => exact absurd (List.cons.inj heq).1 hslash
  next heq =>
    obtain ⟨rfl, rfl⟩ := List.cons.inj heq
    exact if_neg (not_or.2 ⟨hcontrol, hslash⟩)

theorem unitsFrom_letter {c e : Char} (hu : e ≠ 'u') (he : unescape? e = some c) (seen : List Unit16) (s : List Char) :
    unitsFrom seen ('\\' :: e :: s) = unitsFrom (.char c :: seen) s := by
  rw [unitsFrom.eq_def]
  split
  next heq => cases heq
  next heq => exact absurd (List.cons.inj heq).1 (by decide)
  next heq => exact absurd (List.cons.inj (List.cons.inj heq).2).1 hu
  next heq =>
    obtain ⟨rfl, rfl⟩ := List.cons.inj (List.cons.inj heq).2
    rw [he]
  next hno heq =>
    obtain ⟨rfl, rfl⟩ := List.cons.inj heq
    exact absurd rfl (hno e s rfl)

def Unit16.ofEscaped (c : Char) : Unit16 := if (escape c).length = 6 then .code c.toNat else .char c

theorem unitsFrom_escape (c : Char) (seen : List Unit16) (s : List Char) :
    unitsFrom seen (escape c ++ s) = unitsFrom (.ofEscaped c :: seen) s := by
  rcases escape_cases c with ⟨he, hquote, hslash, hcontrol⟩ | ⟨e, he, hu, hunescape⟩ | ⟨he, hcontrol⟩
  · have hunit : Unit16.ofEscaped c = .char c := if_neg (by rw [he]; simp)
    rw [he, hunit]
    exact unitsFrom_char hquote hslash hcontrol seen s
  · have hunit : Unit16.ofEscaped c = .char c := if_neg (by rw [he]; simp)
    rw [he, hunit]
    exact unitsFrom_letter hu hunescape seen s
  · have hhigh := hexValue?_hexDigit (c.toNat / 16) (by omega)
    have hlow := hexValue?_hexDigit (c.toNat % 16) (by omega)
    have hzero : hexValue? '0' = some 0 := by decide
    have hvalue : c.toNat / 16 * 16 + c.toNat % 16 = c.toNat := Nat.div_add_mod' _ _
    have hunit : Unit16.ofEscaped c = .code c.toNat := if_pos (by rw [he]; rfl)
    rw [he, hunit]
    simp only [List.cons_append, List.nil_append, unitsFrom, hzero, hhigh, hlow, Nat.zero_mul, Nat.zero_add, hvalue]

theorem unitsFrom_escaped (rest : List Char) : ∀ (l : List Char) (seen : List Unit16),
    unitsFrom seen (l.flatMap escape ++ '"' :: rest) = some (seen.reverse ++ l.map Unit16.ofEscaped, rest)
  | [], seen => by rw [List.flatMap_nil, List.nil_append, unitsFrom, List.map_nil, List.append_nil]
  | c :: l, seen => by
    rw [List.flatMap_cons, List.append_assoc, unitsFrom_escape, unitsFrom_escaped rest l, List.reverse_cons,
      List.map_cons, List.append_assoc, List.singleton_append]

theorem joinUnits_code {n : Nat} (hn : n < 0xD800) (seen : List Char) (units : List Unit16) :
    joinUnits seen (.code n :: units) = joinUnits (Char.ofNat n :: seen) units := by
  rw [joinUnits.eq_def]
  split
  next heq => cases heq
  next heq => cases heq
  next high low rest heq =>
    cases heq
    rw [if_neg (by omega), if_neg (by omega)]
  next heq =>
    cases heq
    rw [if_neg (by omega)]

theorem joinUnits_escaped : ∀ (l seen : List Char), joinUnits seen (l.map Unit16.ofEscaped) = some (seen.reverse ++ l)
  | [], seen => by rw [List.map_nil, joinUnits, List.append_nil]
  | c :: l, seen => by
    have ih := joinUnits_escaped l (c :: seen)
    rw [List.reverse_cons, List.append_assoc, List.singleton_append] at ih
    rw [List.map_cons, ← ih]
    unfold Unit16.ofEscaped
    split_ifs with hlength
    -- Only control characters are spelled by four digits, and they are far below the halves of characters.
    · have hcontrol : c.toNat < 0x20 := by
        rcases escape_cases c with ⟨he, -, -, -⟩ | ⟨e, he, -, -⟩ | ⟨-, hcontrol⟩
        · rw [he] at hlength; cases hlength
        · rw [he] at hlength; cases hlength
        · exact hcontrol
      rw [joinUnits_code (by omega), Char.ofNat_toNat]
    · rw [joinUnits]

theorem quotedText_escaped (s : String) (rest : List Char) :
    quotedText (s.toList.flatMap escape ++ '"' :: rest) = some (some s, rest) := by
  rw [quotedText, unitsFrom_escaped, List.reverse_nil, List.nil_append, Option.map_some]
  dsimp only
  rw [joinUnits_escaped, List.reverse_nil, List.nil_append, Option.map_some, String.ofList_toList]

/-! ## Numbers -/

def Stops (s : List Char) : Prop := ∀ c ∈ s.head?, isBlank c = true ∨ c = ',' ∨ c = ']' ∨ c = '\x7d'

theorem toDigits_eq_cons (n : Nat) : ∃ d ds, Nat.toDigits 10 n = d :: ds ∧ d.isDigit = true := by
  obtain ⟨d, ds, hds⟩ := List.exists_cons_of_ne_nil (Nat.toDigits_ne_nil (n := n) (b := 10))
  exact ⟨d, ds, hds, Nat.isDigit_of_mem_toDigits (by decide) (by decide) (hds ▸ List.mem_cons_self)⟩

theorem head?_toDigits_ne {n : Nat} (hn : n ≠ 0) : (Nat.toDigits 10 n).head? ≠ some '0' := by
  induction n using Nat.strongRecOn with
  | ind n ih =>
    by_cases hlt : n < 10
    · have hdigit : ∀ n < 10, n ≠ 0 → n.digitChar ≠ '0' := by decide
      rw [Nat.toDigits_of_lt_base hlt, List.head?_cons]
      exact fun h => hdigit n hlt hn (Option.some.inj h)
    · obtain ⟨d, ds, hds, -⟩ := toDigits_eq_cons (n / 10)
      have hhead := ih (n / 10) (by omega) (by omega)
      rw [Nat.toDigits_of_base_le (by decide) (by omega), hds]
      rw [hds] at hhead
      exact hhead

theorem Stops.gap {gap s : List Char} (hgap : ∀ c ∈ gap, isBlank c = true) (h : Stops s) : Stops (gap ++ s) := by
  cases gap with
  | nil => exact h
  | cons c gap =>
    intro d hd
    cases hd
    exact .inl (hgap c List.mem_cons_self)

theorem stops_nil : Stops [] := fun _ h => nomatch h

theorem stops_comma (s : List Char) : Stops (',' :: s) := by
  intro c hc
  cases hc
  exact .inr (.inl rfl)

theorem stops_bracket (s : List Char) : Stops (']' :: s) := by
  intro c hc
  cases hc
  exact .inr (.inr (.inl rfl))

theorem stops_brace (s : List Char) : Stops ('\x7d' :: s) := by
  intro c hc
  cases hc
  exact .inr (.inr (.inr rfl))

theorem Stops.not_goesOn {c : Char} {s : List Char} (h : Stops (c :: s)) :
    c.isDigit = false ∧ c ≠ '.' ∧ c ≠ 'e' ∧ c ≠ 'E' := by
  have hc := h c rfl
  simp only [isBlank, Bool.or_eq_true, decide_eq_true_eq] at hc
  rcases hc with (((rfl | rfl) | rfl) | rfl) | rfl | rfl | rfl <;> decide

theorem digits1_toDigits (n : Nat) {rest : List Char} (h : Stops rest) :
    digits1 (Nat.toDigits 10 n ++ rest) = some (Nat.toDigits 10 n, rest) := by
  have hdigits : ∀ c ∈ Nat.toDigits 10 n, c.isDigit = true := fun c hc =>
    Nat.isDigit_of_mem_toDigits (by decide) (by decide) hc
  have hspan : (Nat.toDigits 10 n ++ rest).span Char.isDigit = (Nat.toDigits 10 n, rest) := by
    rw [List.span_eq_takeWhile_dropWhile, List.takeWhile_append_of_pos hdigits, List.dropWhile_append_of_pos hdigits]
    cases rest with
    | nil => rw [List.takeWhile_nil, List.dropWhile_nil, List.append_nil]
    | cons c rest =>
      have hc : ¬ c.isDigit = true := by rw [h.not_goesOn.1]; exact Bool.false_ne_true
      rw [List.takeWhile_cons_of_neg hc, List.dropWhile_cons_of_neg hc, List.append_nil]
  rw [digits1, hspan]
  split
  next heq => exact absurd (Prod.mk.inj heq).1 Nat.toDigits_ne_nil
  next => rfl

theorem wholePart_toDigits (n : Nat) {rest : List Char} (h : Stops rest) :
    wholePart (Nat.toDigits 10 n ++ rest) = some (Nat.toDigits 10 n, rest) := by
  by_cases hn : n = 0
  · subst hn
    rw [Nat.toDigits_zero, List.singleton_append, wholePart]
    cases rest with
    | nil => rfl
    | cons c rest => simp [h.not_goesOn.1]
  · rw [wholePart.eq_def]
    split
    next heq =>
      obtain ⟨d, ds, hds, -⟩ := toDigits_eq_cons n
      have hhead := head?_toDigits_ne hn
      rw [hds] at heq hhead
      exact absurd (congrArg some (List.cons.inj heq).1) hhead
    next => exact digits1_toDigits n h

theorem Stops.fractionPart {rest : List Char} (h : Stops rest) : fractionPart rest = some ([], rest) := by
  rw [Json.fractionPart.eq_def]
  split
  next => exact absurd rfl h.not_goesOn.2.1
  next => rfl

theorem Stops.exponentPart {rest : List Char} (h : Stops rest) : exponentPart rest = some ([], rest) := by
  cases rest with
  | nil => rfl
  | cons c rest =>
    obtain ⟨-, -, he, hE⟩ := h.not_goesOn
    exact if_neg (not_or.2 ⟨he, hE⟩)

theorem toList_toString (n : Int) :
    (toString n).toList = (if n < 0 then ['-'] else []) ++ Nat.toDigits 10 n.natAbs := by
  cases n with
  | ofNat n =>
    rw [if_neg (by simp)]
    change (Nat.repr n).toList = _
    rw [Nat.repr_eq_ofList_toDigits, String.toList_ofList]
    rfl
  | negSucc n =>
    rw [if_pos (Int.negSucc_lt_zero n)]
    change ("-" ++ Nat.repr (n + 1)).toList = _
    rw [String.toList_append, Nat.repr_eq_ofList_toDigits, String.toList_ofList (l := Nat.toDigits 10 (n + 1))]
    rfl

theorem number_toString {n : Int} (hn : (Nat.toDigits 10 n.natAbs).length ≤ longestInteger) {rest : List Char}
    (h : Stops rest) : number ((toString n).toList ++ rest) = some (.integer n, rest) := by
  rw [toList_toString]
  by_cases hneg : n < 0
  · have hzero : Nat.toDigits 10 n.natAbs ≠ ['0'] := by
      intro hzero
      have hne := head?_toDigits_ne (n := n.natAbs) (by omega)
      rw [hzero] at hne
      exact hne rfl
    rw [if_pos hneg, List.singleton_append, List.cons_append, number]
    simp only [wholePart_toDigits _ h, h.fractionPart, h.exponentPart, Option.bind_eq_bind, Option.bind_some,
      hn, hzero, and_false, not_false_eq_true, and_self, if_true]
    have hvalue : -((n.natAbs : Nat) : Int) = n := by omega
    rw [Nat.ofDigitChars_ten_toDigits, hvalue]
    rfl
  · have hvalue : ((n.natAbs : Nat) : Int) = n := by omega
    rw [if_neg hneg, List.nil_append, number]
    · simp only [wholePart_toDigits _ h, h.fractionPart, h.exponentPart, Option.bind_eq_bind, Option.bind_some,
        hn, Bool.false_eq_true, false_and, not_false_eq_true, and_self, if_true]
      rw [Nat.ofDigitChars_ten_toDigits, hvalue]
      rfl
    · -- no sign stands before the digits
      intro rest' heq
      obtain ⟨d, ds, hds, hdigit⟩ := toDigits_eq_cons n.natAbs
      rw [hds] at heq
      rw [(List.cons.inj heq).1] at hdigit
      exact absurd hdigit (by decide)

end SourceSlice.Json
