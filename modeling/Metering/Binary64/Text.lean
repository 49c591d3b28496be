import Metering.Binary64.Shortest

/-!
# The texts of binary64 numbers

Three texts of a number, each with its own rules:

* `Binary64.plainText` is for people: the shortest digits, written positionally at every size, and
  without a point where there is nothing after it;
* `Binary64.fixedText` is for readable messages: one decimal, rounded from the exact value, a half
  going to the even neighbour;
* the text inside a payload is a JSON numeral and stands with the numerals.
-/

namespace Metering.Binary64

open Decimal

/-- The text of a number that is not finite. -/
def specialText (x : Binary64) : List Char :=
  if x.isNaN then "NaN".toList else if x.negative then "-inf".toList else "inf".toList

/-- A minus sign where the sign bit is set. -/
def signText (x : Binary64) : List Char := if x.negative then ['-'] else []

/-- The digits before and after the point of a decimal number. The part before is never empty. -/
def positional (d : DecimalNumber) : List Digit × List Digit :=
  let ds := digits d.digits
  let point : Int := ds.length + d.exponent
  if point ≤ 0 then ([Digit.zero], List.replicate (-point).toNat Digit.zero ++ ds)
  else if ds.length ≤ point.toNat then
    (ds ++ List.replicate (point.toNat - ds.length) Digit.zero, [])
  else (ds.take point.toNat, ds.drop point.toNat)

/-- The shortest digits of a number in positional notation; of two equally near decimals the larger
one is shown. -/
def plainText (x : Binary64) : List Char :=
  if x.isFinite then
    match positional (x.shortest .up) with
    | (whole, []) => x.signText ++ digitsText whole
    | (whole, fraction) =>
      x.signText ++ digitsText whole ++ '.' :: digitsText fraction
  else x.specialText

/-- A number in tenths, rounded to the nearest from its exact value, a half to the even one. -/
def tenths (x : Binary64) : Nat := roundDiv (x.units * 10) (2 ^ 1074)

/-- A number with one decimal. -/
def fixedText (x : Binary64) : List Char :=
  if x.isFinite then
    x.signText ++ Decimal.text (x.tenths / 10) ++ '.' :: Decimal.text (x.tenths % 10)
  else x.specialText

end Metering.Binary64
