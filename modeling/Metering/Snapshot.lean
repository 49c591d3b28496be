import Metering.Word
import Metering.Context
import Metering.Metrics
import Metering.Outcome

/-!
# Snapshots of a meter

A snapshot is all that is known about one execution of an operation at one moment. Times are
nanoseconds of one clock that never shows zero, so a time of zero means "not yet". What readers of
a snapshot want to know beyond its fields is computed from it here.
-/

namespace Metering

/-- The state of one execution of an operation. -/
structure Snapshot where
  /-- The session that the meter belongs to. -/
  session : Option String := none
  /-- The category of the operation. -/
  category : String := ""
  /-- The name of the operation within its category. -/
  operation : Option String := none
  /-- The full identity of the meter that this one is part of. -/
  parent : Option String := none
  /-- The number of the execution among those of the same operation. -/
  position : UInt64 := 0
  /-- A description for people. -/
  description : Option String := none
  /-- When the meter was created. -/
  createTime : UInt64 := 0
  /-- When the operation was last started. -/
  startTime : UInt64 := 0
  /-- When the operation was last resolved. -/
  stopTime : UInt64 := 0
  /-- When the meter last changed its state. -/
  lastTime : UInt64 := 0
  /-- The execution time above which a success counts as slow; zero for none. -/
  timeLimit : UInt64 := 0
  /-- The number of completed iterations. -/
  iteration : UInt64 := 0
  /-- The number of iterations that are expected; zero if unknown. -/
  expected : UInt64 := 0
  /-- How the operation ended. -/
  outcome : Outcome := .unset
  /-- The named values attached to the operation. -/
  context : Context := .empty
  /-- The metrics that were last sampled. -/
  metrics : Metrics := .zero
  deriving DecidableEq, Inhabited

/-- A duration of so many nanoseconds, in seconds. -/
def secondsOf (nanos : UInt64) : Binary64 :=
  (Binary64.ofNat nanos.toNat).quotient (Binary64.ofNat 1000000000)

namespace Snapshot

/-- The snapshot in which nothing is known. -/
def blank : Snapshot := {}

/-- Forgets all that is known. -/
def reset (_ : Snapshot) : Snapshot := blank

/-- Whether the operation was started. -/
def isStarted (s : Snapshot) : Bool := s.startTime != 0

/-- Whether the operation was resolved. -/
def isStopped (s : Snapshot) : Bool := s.stopTime != 0

/-- The identity of the meter within its session: the category, the operation and the position. -/
def fullId (s : Snapshot) : String :=
  match s.operation with
  | some operation =>
    s.category ++ "/" ++ operation ++ "#" ++ String.ofList (Decimal.text s.position.toNat)
  | none => s.category ++ "#" ++ String.ofList (Decimal.text s.position.toNat)

/-- The time from the start to the end, or up to the last change where there is no end; zero before
the start. -/
def executionTime (s : Snapshot) : UInt64 :=
  if s.startTime = 0 then 0
  else if s.stopTime = 0 then Word.satSub s.lastTime s.startTime
  else Word.satSub s.stopTime s.startTime

/-- The time from the creation to the start, or up to the last change where there is no start. -/
def waitingTime (s : Snapshot) : UInt64 :=
  if s.startTime = 0 then Word.satSub s.lastTime s.createTime
  else Word.satSub s.startTime s.createTime

/-- The iterations per second of execution time; zero where either is zero. -/
def rate (s : Snapshot) : Binary64 :=
  if s.iteration = 0 ∨ s.executionTime = 0 then .zero
  else (Binary64.ofNat s.iteration.toNat).quotient (secondsOf s.executionTime)

/-- Whether there is a time limit and the execution time exceeds it. -/
def isSlow (s : Snapshot) : Bool := s.timeLimit != 0 && s.timeLimit < s.executionTime

end Snapshot
end Metering
