import Metering.Binary64.Text

/-!
# Durations, sizes and rates for people

A readable message shows a duration, a size and a rate with one decimal in the largest unit that
fits; a number below the first unit is shown as it is.
-/

namespace Metering.Units

/-- The text of a number. -/
def numberText (n : UInt64) : String := String.ofList (Decimal.text n.toNat)

/-- A number in a unit, with one decimal and the name of the unit. -/
def scaled (n : UInt64) (unit : Nat) (name : String) : String :=
  String.ofList ((Binary64.ofNat n.toNat).quotient (Binary64.ofNat unit)).fixedText ++ name

/-- A duration in nanoseconds. -/
def nanos (n : UInt64) : String :=
  if n < 1000 then numberText n ++ "ns"
  else if n < 1000000 then scaled n 1000 "us"
  else if n < 1000000000 then scaled n 1000000 "ms"
  else if n < 60000000000 then scaled n 1000000000 "s"
  else if n < 3600000000000 then scaled n 60000000000 "min"
  else scaled n 3600000000000 "h"

/-- A size in bytes. -/
def bytes (n : UInt64) : String :=
  if n < 1000 then numberText n ++ "B"
  else if n < 1000000 then scaled n 1000 "kB"
  else if n < 1000000000 then scaled n 1000000 "MB"
  else scaled n 1000000000 "GB"

/-- A rate per second. -/
def rate (x : Binary64) : String := String.ofList x.fixedText ++ "/s"

end Metering.Units
