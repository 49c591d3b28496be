import Metering.Binary64.Text

/-!
# JSON numerals

A numeral is a sign, a whole part, the digits of a fraction and a power of ten. A numeral without
fraction and power is an integer where it fits into 64 bits; every other numeral is a binary64
number, and has no value at all where that number would be infinite.

A numeral may be of any length, but no midpoint of two neighbouring binary64 numbers has more than
768 significant digits. So these many digits are read as they stand, and whatever digits follow are
jammed into one that says that there is more.

A binary64 number is written with the shortest digits that read back. From `10 ^ -5` up to, and
without, `10 ^ 16` they are written positionally and with a fraction, which is `.0` where there is
nothing to show; beyond that the first digit stands before the point and a signed power of ten
follows.
-/

namespace Metering.Json

open Decimal

/-- A numeral as it stands in a text. -/
structure Numeral where
  /-- Whether a minus sign stands in front. -/
  negative : Bool
  /-- The whole part. -/
  whole : Nat
  /-- The digits after the point; there is no point where this is empty. -/
  fraction : List Digit
  /-- The power of ten, where one is written. -/
  exponent : Option Int
  deriving DecidableEq

/-- The value of a numeral. -/
inductive Number where
  /-- An integer, from `-2 ^ 63` below `2 ^ 64`. -/
  | integer (n : Int)
  /-- Any other number, rounded to binary64. -/
  | real (x : Binary64)
  deriving DecidableEq

/-- The number rounded to binary64. -/
def Number.toBinary64 : Number → Binary64
  | .integer n => if 0 ≤ n then Binary64.ofNat n.natAbs else (Binary64.ofNat n.natAbs).neg
  | .real x => x

namespace Numeral

/-- The text of a fraction; nothing where there is none. -/
def fractionText (ds : List Digit) : List Char :=
  if ds = [] then [] else '.' :: digitsText ds

/-- The text of a power of ten, which has a sign and no leading zero; nothing where none is
written. -/
def exponentText : Option Int → List Char
  | none => []
  | some e => 'e' :: (if e < 0 then '-' else '+') :: Decimal.text e.natAbs

/-- The text of a numeral. -/
def text (n : Numeral) : List Char :=
  (if n.negative then ['-'] else []) ++
    (Decimal.text n.whole ++ (fractionText n.fraction ++ exponentText n.exponent))

/-- Whether the numeral has neither a fraction nor a power of ten. -/
def isPlain (n : Numeral) : Bool := n.fraction.isEmpty && n.exponent.isNone

/-- The size of a numeral, as an exact decimal. Zeros at the end of the fraction are not among its
digits, those at the end of the whole part are. -/
def decimal (n : Numeral) : DecimalNumber :=
  let fraction := (n.fraction.reverse.dropWhile (· = Digit.zero)).reverse
  ⟨n.whole * 10 ^ fraction.length + ofDigits fraction, n.exponent.getD 0 - fraction.length⟩

/-- How many significant digits are read as they stand. -/
def plainDigits : Nat := 768

/-- The least whole number with more digits than are read as they stand. -/
def jamLimit : Nat := 10 ^ plainDigits

theorem jamLimit_pos : 0 < jamLimit := Nat.pow_pos (by decide)

/-- The leading digits of a decimal, as many as are read as they stand. -/
def leadingDigits (d : DecimalNumber) : DecimalNumber :=
  if _h : d.digits < jamLimit then d else leadingDigits ⟨d.digits / 10, d.exponent + 1⟩
termination_by d.digits
decreasing_by
  have := jamLimit_pos
  exact Nat.div_lt_self (by omega) (by decide)

/-- A decimal as it is rounded: the digit one stands for all digits after the leading ones. It says
that there is more than the leading digits, and is there even if only zeros follow; so a midpoint
that is written with too many zeros is rounded up. -/
def jam (d : DecimalNumber) : DecimalNumber :=
  if d.digits < jamLimit then d
  else
    let leading := leadingDigits d
    ⟨leading.digits * 10 + 1, leading.exponent - 1⟩

/-- The integer that a numeral stands for, if it is one that fits into 64 bits. A negative zero is
not an integer. -/
def integer? (n : Numeral) : Option Int :=
  if !n.isPlain then none
  else if n.negative then
    if 0 < n.whole ∧ n.whole ≤ 2 ^ 63 then some (-n.whole) else none
  else if n.whole < 2 ^ 64 then some n.whole else none

/-- The value of a numeral, if it is in range. -/
def number? (n : Numeral) : Option Number :=
  match n.integer? with
  | some i => some (.integer i)
  | none =>
    let x := (jam n.decimal).toBinary64
    if x.isFinite then some (.real (if n.negative then x.neg else x)) else none

/-- The numeral of a natural number. -/
def ofNat (n : Nat) : Numeral := ⟨false, n, [], none⟩

/-- The first power of ten that is written positionally. -/
def leastPositional : Int := -5

/-- The first power of ten that is again written with an exponent. -/
def firstScientific : Int := 16

/-- The numeral of a finite binary64 number. -/
def ofBinary64 (x : Binary64) : Numeral :=
  let d := x.shortest .even
  let ds := digits d.digits
  let e : Int := ds.length + d.exponent - 1
  if leastPositional ≤ e ∧ e < firstScientific then
    let (whole, fraction) := Binary64.positional d
    ⟨x.negative, ofDigits whole, if fraction = [] then [Digit.zero] else fraction, none⟩
  else
    ⟨x.negative, ofDigits (ds.take 1), ds.drop 1, some e⟩

end Numeral
end Metering.Json
