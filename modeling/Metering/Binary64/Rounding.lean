import Metering.Binary64.Basic

/-!
# Rounding to binary64

A non-negative rational number is rounded to the nearest binary64 number, and to the even one of
two equally near. Seen in units of `2 ^ -1074` the numbers with the same exponent are the multiples
of a power of two, `2 ^ s`, that have at most fifty-three bits; the bits of such a number are
`s * 2 ^ 52` plus the multiple, also where rounding carries into the next exponent and also below
the normal range. So rounding is one integer division and needs no case for subnormal numbers.
-/

namespace Metering

/-- The whole number nearest to `num / den`, the even one of two equally near. -/
def roundDiv (num den : Nat) : Nat :=
  let q := num / den
  let r := num % den
  if 2 * r < den then q else if den < 2 * r then q + 1 else q + q % 2

namespace Binary64

/-- The binary64 number nearest to `num / den`, for a positive `den`. -/
def ofRatio (num den : Nat) : Binary64 :=
  let n := num * 2 ^ 1074
  let s := (n / den).log2 - 52
  let b := s * 2 ^ 52 + roundDiv n (den * 2 ^ s)
  if b < infinityBits then ⟨UInt64.ofNat b⟩ else infinity

/-- The binary64 number nearest to a natural number. -/
def ofNat (n : Nat) : Binary64 := ofRatio n 1

/-- The binary64 number nearest to `digits * 10 ^ exponent`. The two early answers spare the
powers of ten of numbers that are far out of range on either side. -/
def ofDecimal (digits : Nat) (exponent : Int) : Binary64 :=
  match exponent with
  | .ofNat e =>
    if digits = 0 then zero
    else if 400 < e then infinity
    else ofRatio (digits * 10 ^ e) 1
  | .negSucc k =>
    let k := k + 1
    if digits.log2 + 400 < k then zero else ofRatio digits (10 ^ k)

/-- The quotient of two non-negative finite numbers, the second of which is not zero. -/
def quotient (x y : Binary64) : Binary64 := ofRatio x.units y.units

end Binary64
end Metering
