import Metering.Word
import Metering.Decimal.Digits
import Metering.Text.Blank

/-!
# Durations

A duration is an exact number of nanoseconds. As a property it is written as a whole number with a
unit: `250` or `250ms`, `3s`, `2min`, `1h`, with white space allowed around the number and the unit.
The number and the seconds it makes have to fit into 64 bits.
-/

namespace Metering

/-- A duration. -/
structure Duration where
  /-- The length in nanoseconds. -/
  nanos : Nat
  deriving DecidableEq, Inhabited

namespace Duration

/-- A duration of whole seconds and further nanoseconds. -/
def ofParts (seconds nanos : Nat) : Duration := ⟨seconds * 1000000000 + nanos⟩

/-- A duration of whole seconds. -/
def ofSeconds (n : Nat) : Duration := ofParts n 0

/-- A duration of whole milliseconds. -/
def ofMillis (n : Nat) : Duration := ⟨n * 1000000⟩

/-- The whole seconds of a duration. -/
def seconds (d : Duration) : Nat := d.nanos / 1000000000

/-- The nanoseconds beyond the whole seconds. -/
def subsecond (d : Duration) : Nat := d.nanos % 1000000000

/-- The duration in nanoseconds, stopping at the largest word. -/
def toWord (d : Duration) : UInt64 := Word.ofNatCapped d.nanos

/-- The unit of a written duration. -/
inductive Unit where
  /-- Milliseconds, also meant where no unit is written. -/
  | milliseconds
  /-- Seconds. -/
  | seconds
  /-- Minutes. -/
  | minutes
  /-- Hours. -/
  | hours
  deriving DecidableEq

/-- The unit that a text names. -/
def Unit.ofText? (text : List Char) : Option Unit :=
  if text = [] ∨ text = ['m', 's'] then some .milliseconds
  else if text = ['s'] then some .seconds
  else if text = ['m', 'i', 'n'] then some .minutes
  else if text = ['h'] then some .hours
  else none

/-- The seconds of a duration, if they fit into 64 bits. -/
def checkedSeconds (n : Nat) : Option Duration :=
  if n < 2 ^ 64 then some (ofSeconds n) else none

/-- So many of a unit. -/
def ofUnit? (n : Nat) : Unit → Option Duration
  | .milliseconds => some (ofMillis n)
  | .seconds => some (ofSeconds n)
  | .minutes => checkedSeconds (n * 60)
  | .hours => checkedSeconds (n * 3600)

/-- The duration that a text shows. -/
def parse? (text : List Char) : Option Duration :=
  match Decimal.spanDigits (Text.trim text) with
  | ([], _) => none
  | (ds, rest) =>
    let n := Decimal.ofDigits ds
    if n < 2 ^ 64 then (Unit.ofText? (Text.trim rest)).bind (ofUnit? n) else none

end Duration
end Metering
