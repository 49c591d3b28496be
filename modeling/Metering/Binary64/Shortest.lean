import Metering.Binary64.Rounding
import Metering.Decimal.Digits

/-!
# The shortest decimal that reads back

A finite binary64 number is shown by the fewest decimal digits that are read back as the same
number, and by the nearest of the decimals with that many digits. The search goes from one digit to
seventeen; on each grid only the two neighbours of the number can be the answer. Each candidate is
checked with the reading function itself, and the exact decimal expansion stands behind the search,
so what is returned always reads back.
-/

namespace Metering

/-- A decimal number `digits * 10 ^ exponent`. -/
structure DecimalNumber where
  /-- The digits, read as a whole number. -/
  digits : Nat
  /-- The power of ten that the last digit counts. -/
  exponent : Int
  deriving DecidableEq, Inhabited

namespace DecimalNumber

/-- The binary64 number nearest to a decimal number. -/
def toBinary64 (d : DecimalNumber) : Binary64 := Binary64.ofDecimal d.digits d.exponent

/-- The same number without zeros at the end of its digits; zero becomes `0 * 10 ^ 0`. -/
def strip (d : DecimalNumber) : DecimalNumber :=
  if _h : d.digits = 0 then ⟨0, 0⟩
  else if d.digits % 10 = 0 then strip ⟨d.digits / 10, d.exponent + 1⟩
  else d
termination_by d.digits
decreasing_by exact Nat.div_lt_self (Nat.pos_of_ne_zero _h) (by decide)

end DecimalNumber

/-- Which of two equally near decimals is chosen. -/
inductive TieRule where
  /-- The one whose last digit is even. -/
  | even
  /-- The larger one. -/
  | up
  deriving DecidableEq

namespace Binary64

/-- The exact value of a finite number, as a decimal. A bit that counts less than one is a power of
five in places after the point. -/
def exactDecimal (x : Binary64) : DecimalNumber :=
  if x.lastPlace ≤ 1074 then
    ⟨x.significand * 5 ^ (1074 - x.lastPlace), (x.lastPlace : Int) - 1074⟩
  else ⟨x.significand * 2 ^ (x.lastPlace - 1074), 0⟩

/-- The power of ten of the leading digit of a finite non-zero number. The smallest number is above
`10 ^ -350`, so multiplied by `10 ^ 350` every number has its leading digit before the point. -/
def leadingExponent (x : Binary64) : Int :=
  ((Decimal.digits (x.units * 10 ^ 350 / 2 ^ 1074)).length : Int) - 351

/-- A finite number counted in steps of `10 ^ g`, as a numerator and a denominator. -/
def onGrid (x : Binary64) (g : Int) : Nat × Nat :=
  match g with
  | .ofNat g => (x.units, 2 ^ 1074 * 10 ^ g)
  | .negSucc g => (x.units * 10 ^ (g + 1), 2 ^ 1074)

/-- Of the two neighbours of `num / den` on the grid in steps of `10 ^ g`, the nearest one that
reads back as the number `x`, if there is one. -/
def neighbour? (tie : TieRule) (x : Binary64) (g : Int) (num den : Nat) : Option DecimalNumber :=
  let low := num / den
  let below : DecimalNumber := DecimalNumber.strip ⟨low, g⟩
  let above : DecimalNumber := DecimalNumber.strip ⟨low + 1, g⟩
  match below.toBinary64 == x, above.toBinary64 == x with
  | false, false => none
  | true, false => some below
  | false, true => some above
  | true, true =>
    let middle := (2 * low + 1) * den
    if 2 * num < middle then some below
    else if middle < 2 * num then some above
    else match tie with
      | .even => if low % 2 = 0 then some below else some above
      | .up => some above

/-- The nearest decimal with `n` digits that reads back as the non-negative number `x`, if there is
one. -/
def candidate? (tie : TieRule) (x : Binary64) (n : Nat) : Option DecimalNumber :=
  let g := x.leadingExponent + 1 - n
  neighbour? tie x g (x.onGrid g).1 (x.onGrid g).2

/-- The shortest decimal that reads back as the size of a finite number. -/
def shortest (tie : TieRule) (x : Binary64) : DecimalNumber :=
  if x.units = 0 then ⟨0, 0⟩
  else ((List.range 17).findSome? fun n => candidate? tie x.abs (n + 1)).getD x.exactDecimal

end Binary64
end Metering
