import Metering.Event
import Metering.Snapshot
import Metering.Units

/-!
# Misuse of meters

A call that does not suit the state of a meter, or an argument that makes no sense, is reported by
an event and otherwise tolerated. The report names the meter and is logged whether or not events of
its level are wanted.
-/

namespace Metering

/-- A reason to report a call on a meter. -/
inductive Misuse where
  /-- The operation was started before. -/
  | startedAgain
  /-- The operation was resolved before; the marker tells how it is resolved now. -/
  | resolvedAgain (marker : Marker)
  /-- The operation is resolved without having been started. -/
  | resolvedUnstarted (marker : Marker)
  /-- Iterations are counted before the start. -/
  | incrementedUnstarted
  /-- No iterations are counted. -/
  | zeroIncrement
  /-- The number of iterations is set to one that is not larger. -/
  | iterationNotAhead (n current : UInt64)
  /-- Progress is reported before the start. -/
  | progressUnstarted
  /-- Something is set to zero. -/
  | notPositive (what : String)
  /-- A part of the operation has an empty name. -/
  | emptyPartName
  /-- The library itself is at fault. -/
  | defect (problem : String)
  deriving DecidableEq

namespace Misuse

/-- The marker of a report. -/
def marker : Misuse → Marker
  | .startedAgain => .inconsistent .start
  | .resolvedAgain marker => marker
  | .resolvedUnstarted marker => marker
  | .incrementedUnstarted => .inconsistent .increment
  | .zeroIncrement => .illegal
  | .iterationNotAhead .. => .illegal
  | .progressUnstarted => .inconsistent .progress
  | .notPositive _ => .illegal
  | .emptyPartName => .illegal
  | .defect _ => .bug

/-- What a report says about the call. -/
def problem : Misuse → String
  | .startedAgain => "meter started more than once"
  | .resolvedAgain _ => "meter resolved more than once"
  | .resolvedUnstarted _ => "meter resolved without being started"
  | .incrementedUnstarted => "meter incremented without being started"
  | .zeroIncrement => "increment must be positive"
  | .iterationNotAhead n current =>
    "iteration " ++ Units.numberText n ++ " does not exceed current iteration " ++
      Units.numberText current
  | .progressUnstarted => "progress reported without being started"
  | .notPositive what => what ++ " must be positive"
  | .emptyPartName => "sub-meter name must not be empty"
  | .defect problem => problem

/-- The report on a meter in a given state. -/
def event (m : Misuse) (s : Snapshot) : Event where
  level := .error
  marker := m.marker
  category := s.category
  message := m.problem ++ ": " ++ s.fullId
  hasCaller := true

end Misuse

/-! ## What is reported when

Each function says which misuse a call is in a given state, if it is one.
-/

namespace Snapshot

/-- Starting is misuse after a start. -/
def misuseOfStart (s : Snapshot) : Option Misuse :=
  if s.isStarted then some .startedAgain else none

/-- Resolving is misuse after a resolution and before a start. -/
def misuseOfResolve (s : Snapshot) (marker : Marker) : Option Misuse :=
  if s.isStopped then some (.resolvedAgain marker)
  else if s.isStarted then none
  else some (.resolvedUnstarted marker)

/-- Counting is misuse before the start. -/
def misuseOfIncrement (s : Snapshot) : Option Misuse :=
  if s.isStarted then none else some .incrementedUnstarted

/-- Counting nothing is misuse. -/
def misuseOfIncrementBy (_ : Snapshot) (n : UInt64) : Option Misuse :=
  if n = 0 then some .zeroIncrement else none

/-- Setting the iterations to a number that is not larger is misuse. -/
def misuseOfIncrementTo (s : Snapshot) (n : UInt64) : Option Misuse :=
  if n ≤ s.iteration then some (.iterationNotAhead n s.iteration) else none

/-- Reporting progress is misuse before the start. -/
def misuseOfProgress (s : Snapshot) : Option Misuse :=
  if s.isStarted then none else some .progressUnstarted

/-- Setting something to zero is misuse. -/
def misuseOfPositive (_ : Snapshot) (what : String) (n : UInt64) : Option Misuse :=
  if n = 0 then some (.notPositive what) else none

/-- An empty name for a part of the operation is misuse. -/
def misuseOfPart (_ : Snapshot) (name : String) : Option Misuse :=
  if name = "" then some .emptyPartName else none

end Snapshot
end Metering
