import Metering.Word

/-!
# Binary64 numbers

A binary64 number is its 64 bits: a sign, eleven bits of exponent and fifty-two bits of fraction.
Every finite number is a whole multiple of `2 ^ -1074`, so its size is the natural number of such
`units`, and exact arithmetic on numbers is arithmetic on naturals.

Equality of bits is the equality of the type. The numeric comparison `Binary64.Same` differs from
it in two places: the two zeros are the same number, and a NaN is the same number as nothing.
-/

namespace Metering

/-- A binary64 number, given by its bits. -/
structure Binary64 where
  /-- The sign, the exponent and the fraction, from the highest bit down. -/
  bits : UInt64
  deriving DecidableEq, Inhabited

namespace Binary64

/-- The bits of positive infinity, which are those of an all-ones exponent. -/
def infinityBits : Nat := 2047 * 2 ^ 52

/-- Positive zero. -/
def zero : Binary64 := ⟨0⟩

/-- Positive infinity. -/
def infinity : Binary64 := ⟨UInt64.ofNat infinityBits⟩

/-- A quiet NaN. -/
def nan : Binary64 := ⟨UInt64.ofNat (infinityBits + 2 ^ 51)⟩

/-- Whether the sign bit is set. -/
def negative (x : Binary64) : Bool := 2 ^ 63 ≤ x.bits.toNat

/-- The bits without the sign. -/
def magnitudeBits (x : Binary64) : Nat := x.bits.toNat % 2 ^ 63

/-- The number with its sign turned around. -/
def neg (x : Binary64) : Binary64 := ⟨x.bits + 0x8000000000000000⟩

/-- The number without its sign. -/
def abs (x : Binary64) : Binary64 := ⟨UInt64.ofNat x.magnitudeBits⟩

/-- Whether the number is neither infinite nor a NaN. -/
def isFinite (x : Binary64) : Bool := x.magnitudeBits < infinityBits

/-- Whether the bits are those of a NaN. -/
def isNaN (x : Binary64) : Bool := infinityBits < x.magnitudeBits

/-- Whether the number is one of the two zeros. -/
def isZero (x : Binary64) : Bool := x.magnitudeBits == 0

/-- The place of the last bit of a finite number: it counts `2 ^ lastPlace` units. -/
def lastPlace (x : Binary64) : Nat := x.magnitudeBits / 2 ^ 52 - 1

/-- The digits of a finite number in base two, read as a whole number. The leading one of a normal
number is not among its bits. -/
def significand (x : Binary64) : Nat :=
  let fraction := x.magnitudeBits % 2 ^ 52
  if x.magnitudeBits / 2 ^ 52 = 0 then fraction else 2 ^ 52 + fraction

/-- The size of a finite number in multiples of `2 ^ -1074`. -/
def units (x : Binary64) : Nat := x.significand * 2 ^ x.lastPlace

/-- Numeric equality: the zeros are the same, and a NaN is the same as nothing. -/
def same (x y : Binary64) : Bool :=
  !x.isNaN && !y.isNaN && (x == y || (x.isZero && y.isZero))

end Binary64
end Metering
