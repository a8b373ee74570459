/-!
# Numbers of double precision

A number of double precision is kept exactly, as a count of the smallest positive one.  Products of powers of ten are
taken with 64 significant bits and come down to 53 at the end, so what comes out need not be the nearest number.
-/
namespace SourceSlice

/-- A number of double precision, in units of two to the power of -1074; two to the power of 1024 stands for more than
any of them. -/
structure Binary64 where
  units : Int
deriving DecidableEq, Repr

namespace Binary64

/-- The exponent of the unit, without its sign. -/
def unitBits : Nat := 1074

/-- A whole number in units. -/
def unitsOf (n : Int) : Int := n * Nat.shiftLeft 1 unitBits

/-- The whole number that this one is, where it is one. -/
def whole? (x : Binary64) : Option Int :=
  let one : Int := Nat.shiftLeft 1 unitBits
  if x.units % one = 0 then some (x.units / one) else none

end Binary64

/-- A positive number as a mantissa and a power of two. -/
structure Extended where
  mantissa : Nat
  exponent : Int

namespace Extended

/-- A number without its last `k` bits, rounded to the nearest, and to the even one of two. -/
def roundBits (m k : Nat) : Nat :=
  if k = 0 then m
  else
    let q := m.shiftRight k
    let r := m - q.shiftLeft k
    let half := Nat.shiftLeft 1 (k - 1)
    if half < r ∨ (r = half ∧ q % 2 = 1) then q + 1 else q

/-- The number with at most 64 significant bits. -/
def normalized (x : Extended) : Extended :=
  let k := x.mantissa.log2 - 63
  ⟨roundBits x.mantissa k, x.exponent + k⟩

def mul (x y : Extended) : Extended := normalized ⟨x.mantissa * y.mantissa, x.exponent + y.exponent⟩

def mulPower (y : Extended) : Nat → Extended → Extended
  | 0, x => x
  | n + 1, x => mulPower y n (x.mul y)

/-- The hundredth, the tenth and the first power of ten, with 64 bits. -/
def tens : Extended × Extended × Extended :=
  (⟨0x924D692CA61BE758, 269⟩, ⟨10000000000, 0⟩, ⟨10, 0⟩)

/-- The reciprocals of those. -/
def tenths : Extended × Extended × Extended :=
  (⟨0xDFF9772470297EBD, -396⟩, ⟨0xDBE6FECEBDEDD5BF, -97⟩, ⟨0xCCCCCCCCCCCCCCCD, -67⟩)

/-- The number with the powers multiplied in: as many hundredth ones as go into `n`, then tenth ones, then the rest. -/
def scale (powers : Extended × Extended × Extended) (n : Nat) (x : Extended) : Extended :=
  mulPower powers.2.2 (n % 10) (mulPower powers.2.1 (n % 100 / 10) (mulPower powers.1 (n / 100) x))

def greatest : Nat := Nat.shiftLeft (Nat.shiftLeft 1 53 - 1) 2045

/-- What stands for more than that. -/
def infinite : Nat := Nat.shiftLeft 1 2098

def toUnits (x : Extended) : Nat :=
  let shift := x.exponent + Binary64.unitBits
  let bits : Int := x.mantissa.log2 + 1 + shift
  if 2098 < bits ∨ (0 ≤ shift ∧ greatest < x.mantissa.shiftLeft shift.toNat) then infinite
  else
    let cleared := (bits - 53).toNat
    if shift < cleared then (roundBits x.mantissa (cleared - shift).toNat).shiftLeft cleared
    else x.mantissa.shiftLeft shift.toNat

end Extended
end SourceSlice
