import SourceSlice.Results.Binary64
/-!
# Numbers in texts

A text that is a number in decimal notation, with any sign, fraction and exponent and with blanks around it, is kept
as that number by a column of numbers: a whole number that fits 64 bits exactly, any other with double precision.
-/
namespace SourceSlice

structure Numeral where
  negative : Bool
  whole : List Char
  fraction : Option (List Char)
  /-- The sign and the digits of the exponent, where there is one. -/
  exponent : Option (Bool × List Char)

namespace Numeral

/-- The blanks around a number: those of ASCII. -/
def isBlank (c : Char) : Bool := c = ' ' || ('\t' ≤ c && c ≤ '\r')

def trim (s : List Char) : List Char := ((s.dropWhile isBlank).reverse.dropWhile isBlank).reverse

/-- Whether a minus sign stands here, and the text after the sign. -/
def sign : List Char → Bool × List Char
  | '-' :: rest => (true, rest)
  | '+' :: rest => (false, rest)
  | s => (false, s)

def read? (s : List Char) : Option Numeral :=
  let (negative, s) := sign (trim s)
  let (whole, s) := s.span Char.isDigit
  let (fraction, s) : Option (List Char) × List Char := match s with
    | '.' :: s => let (digits, s) := s.span Char.isDigit; (some digits, s)
    | s => (none, s)
  if whole = [] ∧ fraction.getD [] = [] then none
  else match s with
    | [] => some ⟨negative, whole, fraction, none⟩
    | e :: s =>
      let (down, digits) := sign s
      if (e = 'e' ∨ e = 'E') ∧ digits ≠ [] ∧ digits.all Char.isDigit then
        some ⟨negative, whole, fraction, some (down, digits)⟩
      else none

def digit (c : Char) : Nat := c.toNat - 48

def signed (n : Numeral) (m : Nat) : Int := if n.negative then -m else m

/-- The whole number that is written without point and exponent. -/
def integer? (n : Numeral) : Option Int :=
  if n.fraction.isNone ∧ n.exponent.isNone then some (n.signed (Nat.ofDigitChars 10 n.whole 0)) else none

/-! ## Values of double precision -/

/-- From here on the digits of a number do not count any more. -/
def significandLimit : Nat := 1844674407370955160

/-- The digits before the point that count, as a number, and how many do not. -/
def countWhole (s : Nat) : List Char → Nat × Nat
  | [] => (s, 0)
  | c :: rest =>
    let s := s * 10 + digit c
    if significandLimit ≤ s then (s, rest.length) else countWhole s rest

/-- The number with the digits after the point that count, and how many they are. -/
def countFraction (s : Nat) : List Char → Nat × Nat
  | [] => (s, 0)
  | c :: rest =>
    if significandLimit ≤ s then (s, 0)
    else
      let (s, n) := countFraction (s * 10 + digit c) rest
      (s, n + 1)

/-- The number that the digits of an exponent are taken for; a great one is great enough. -/
def countExponent (digits : List Char) : Nat :=
  digits.foldl (fun e c => if e < 10000 then e * 10 + digit c else 10000) 0

/-- Takes powers of ten into the number as long as it does not grow beyond 64 bits. -/
def raise (s : Nat) : Nat → Nat × Nat
  | 0 => (s, 0)
  | e + 1 => if s ≤ significandLimit then raise (s * 10) e else (s, e + 1)

/-- Takes reciprocal powers of ten into the number as long as it stays whole. -/
def lower (s : Nat) : Nat → Nat × Nat
  | 0 => (s, 0)
  | e + 1 => if s % 10 = 0 then lower (s / 10) e else (s, e + 1)

/-- The value of a number times a power of ten, in units. -/
def scaled (s : Nat) (e : Int) : Nat :=
  if s = 0 then 0
  else if 0 ≤ e then
    let (s, e) := raise s e.toNat
    (Extended.scale Extended.tens e ⟨s, 0⟩).toUnits
  else
    let (s, e) := lower s (-e).toNat
    (Extended.scale Extended.tenths e ⟨s, 0⟩).toUnits

/-- **The value of a numeral** with double precision. -/
def value (n : Numeral) : Binary64 :=
  let (s, skipped) := countWhole 0 n.whole
  let (s, used) := countFraction s (n.fraction.getD [])
  let e : Int := match n.exponent with
    | some (true, digits) => -countExponent digits
    | some (false, digits) => countExponent digits
    | none => 0
  ⟨n.signed (scaled s (e + skipped - used))⟩

end Numeral
end SourceSlice
