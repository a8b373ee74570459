import SourceSlice.Text.Split
/-!
# Line numbers

Lines are counted from one in 32 bits.  A criterion writes its line in digits alone, and these are looked at before the
number is read; a field of an engine's report is read as any integer is, with the blanks around it taken off, and may
have a plus sign.  `parse?_eq_some_iff` says what the first reader takes, `parseField?_eq` how the second differs.
-/
namespace SourceSlice

open Text

/-- The place of a line in its file, counted from one. -/
structure LineNumber where
  val : UInt32
  ne_zero : val ≠ 0
deriving DecidableEq, Repr

namespace LineNumber

def greatest : Nat := 4294967295

def ofNat? (n : Nat) : Option LineNumber :=
  if h : 0 < n ∧ n ≤ greatest then
    some ⟨UInt32.ofNat n, by
      intro e
      have := congrArg UInt32.toNat e
      simp [greatest] at h this
      omega⟩
  else none

def toNat (n : LineNumber) : Nat := n.val.toNat

instance : ToString LineNumber := ⟨fun n => toString n.toNat⟩

/-- The number with one more digit behind it, while it has 32 bits. -/
def withDigit? (n : Nat) (c : Char) : Option Nat :=
  let m := 10 * n + (c.toNat - '0'.toNat)
  if c.isDigit ∧ m ≤ greatest then some m else none

/-- The number with more digits behind it; it is given up at once when it needs more than 32 bits. -/
def withDigits? (n : Nat) : List Char → Option Nat
  | [] => some n
  | c :: rest => match withDigit? n c with
    | some m => withDigits? m rest
    | none => none

def dropPlus : List Char → List Char
  | '+' :: rest => rest
  | s => s

/-- **An integer of 32 bits**: digits, one or more, with at most one plus sign before them. -/
def integer? (s : List Char) : Option Nat :=
  match dropPlus s with
  | [] => none
  | digits => withDigits? 0 digits

/-- **A line number in digits**: one or more of them and nothing else. -/
def parse? (s : List Char) : Option LineNumber :=
  if s ≠ [] ∧ s.all Char.isDigit then (integer? s).bind ofNat? else none

/-- A line number in a report: blanks around it do not count. -/
def parseField? (field : List Char) : Option LineNumber := (integer? (trim field)).bind ofNat?

theorem toNat_ofNat? {n : Nat} {l : LineNumber} (h : ofNat? n = some l) : l.toNat = n := by
  unfold ofNat? at h
  split at h
  next hn =>
    simp only [Option.some.injEq] at h
    subst h
    simp only [greatest] at hn
    simp [toNat, Nat.mod_eq_of_lt (show n < 4294967296 by omega)]
  next => simp at h

/-- **A number has a line number exactly when it lies between one and the greatest.** -/
theorem ofNat?_isSome_iff {n : Nat} : (ofNat? n).isSome ↔ 0 < n ∧ n ≤ greatest := by
  unfold ofNat?
  split <;> simp [*]

theorem toNat_injective {a b : LineNumber} (h : a.toNat = b.toNat) : a = b := by
  cases a; cases b
  simp only [mk.injEq]
  exact UInt32.toNat_inj.1 h

theorem toNat_le_greatest (l : LineNumber) : l.toNat ≤ greatest := by
  have := l.val.toNat_lt
  simp only [toNat, greatest]
  omega

theorem ofNat?_toNat (l : LineNumber) : ofNat? l.toNat = some l := by
  have hpos : 0 < l.toNat := by
    have : l.val.toNat ≠ 0 := fun h => l.ne_zero (UInt32.toNat_inj.1 h)
    exact Nat.pos_of_ne_zero this
  obtain ⟨m, hm⟩ := Option.isSome_iff_exists.1 (ofNat?_isSome_iff.2 ⟨hpos, l.toNat_le_greatest⟩)
  rw [hm, toNat_injective (toNat_ofNat? hm)]

/-! ## Reading integers -/

theorem le_ofDigitChars (n : Nat) : ∀ s : List Char, n ≤ Nat.ofDigitChars 10 s n
  | [] => Nat.le_of_eq Nat.ofDigitChars_nil.symm
  | c :: rest => by
    have ih := le_ofDigitChars (10 * n + (c.toNat - '0'.toNat)) rest
    rw [Nat.ofDigitChars_cons]
    omega

/-- **Digits are read as their value, and given up exactly when that has more than 32 bits**: further digits never make
a number smaller, so it does not matter at which of them the reading stops. -/
theorem withDigits?_eq_some_iff {m : Nat} : ∀ {s : List Char} {n : Nat}, n ≤ greatest →
    (withDigits? n s = some m ↔ s.all Char.isDigit = true ∧ Nat.ofDigitChars 10 s n = m ∧ m ≤ greatest)
  | [], n, hn => by
    rw [withDigits?, Nat.ofDigitChars_nil, Option.some_inj]
    exact ⟨fun h => ⟨rfl, h, h ▸ hn⟩, fun h => h.2.1⟩
  | c :: rest, n, _ => by
    have hlater := le_ofDigitChars (10 * n + (c.toNat - '0'.toNat)) rest
    rw [withDigits?, withDigit?, Nat.ofDigitChars_cons, List.all_cons, Bool.and_eq_true]
    by_cases hc : c.isDigit = true ∧ 10 * n + (c.toNat - '0'.toNat) ≤ greatest
    · rw [if_pos hc, and_assoc, and_iff_right hc.1]
      exact withDigits?_eq_some_iff hc.2
    · rw [if_neg hc]
      refine ⟨nofun, ?_⟩
      rintro ⟨⟨hdigit, -⟩, hvalue, hle⟩
      exact absurd ⟨hdigit, by omega⟩ hc

theorem integer?_eq_some_iff {s : List Char} {n : Nat} : integer? s = some n ↔
    dropPlus s ≠ [] ∧ (dropPlus s).all Char.isDigit = true ∧ Nat.ofDigitChars 10 (dropPlus s) 0 = n ∧ n ≤ greatest := by
  unfold integer?
  split
  next h => simp [h]
  next digits hne => rw [withDigits?_eq_some_iff (Nat.zero_le _), and_iff_right hne]

/-- Before digits there is no plus sign to drop. -/
theorem dropPlus_of_digits {s : List Char} (h : s.all Char.isDigit = true) : dropPlus s = s := by
  unfold dropPlus
  split
  next rest => exact absurd (List.all_eq_true.1 h '+' List.mem_cons_self) (by decide)
  next => rfl

theorem bind_ofNat?_eq_some_iff {x : Option Nat} {l : LineNumber} : x.bind ofNat? = some l ↔ x = some l.toNat := by
  rw [Option.bind_eq_some_iff]
  constructor
  · rintro ⟨n, rfl, hl⟩
    rw [toNat_ofNat? hl]
  · rintro rfl
    exact ⟨l.toNat, rfl, ofNat?_toNat l⟩

/-- **What reads as a line number**: digits whose value it is. -/
theorem parse?_eq_some_iff {s : List Char} {l : LineNumber} :
    parse? s = some l ↔ s ≠ [] ∧ s.all Char.isDigit = true ∧ Nat.ofDigitChars 10 s 0 = l.toNat := by
  unfold parse?
  split
  next h =>
    rw [bind_ofNat?_eq_some_iff, integer?_eq_some_iff, dropPlus_of_digits h.2]
    exact ⟨fun ⟨hne, hdigits, hvalue, _⟩ => ⟨hne, hdigits, hvalue⟩,
      fun ⟨hne, hdigits, hvalue⟩ => ⟨hne, hdigits, hvalue, l.toNat_le_greatest⟩⟩
  next h =>
    refine ⟨nofun, ?_⟩
    rintro ⟨hne, hdigits, -⟩
    exact absurd ⟨hne, hdigits⟩ h

/-- **A report's reader differs from a criterion's by the blanks and the sign that it passes over.** -/
theorem parseField?_eq (field : List Char) : parseField? field = parse? (dropPlus (trim field)) := by
  refine Option.ext fun l => ?_
  rw [parse?_eq_some_iff, parseField?, bind_ofNat?_eq_some_iff, integer?_eq_some_iff]
  exact ⟨fun ⟨hne, hdigits, hvalue, _⟩ => ⟨hne, hdigits, hvalue⟩,
    fun ⟨hne, hdigits, hvalue⟩ => ⟨hne, hdigits, hvalue, l.toNat_le_greatest⟩⟩

end LineNumber
end SourceSlice
