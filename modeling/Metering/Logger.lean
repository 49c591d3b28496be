import Metering.Event

/-!
# Loggers

A logger says which events are wanted, so that the others need not be made, and hands on the events
it is given. Reports of misuse are given to it without asking. Three loggers are common: one that
records everything, one that records what passes a filter, and one that hands events on to a
subscriber, which drops what is less urgent than its maximum level.
-/

namespace Metering

/-- Which events are wanted, by level and category. -/
abbrev Enabled := Level → String → Bool

/-- What happens to the events of a session. -/
structure Logger where
  /-- Which events are wanted. -/
  enabled : Enabled
  /-- Which levels arrive behind the logger. -/
  arrives : Level → Bool
  /-- Whether the events are kept by a recorder. -/
  records : Bool

namespace Logger

/-- The logger that records every event. -/
def recorder : Logger := ⟨fun _ _ => true, fun _ => true, true⟩

/-- The logger that records events, wanting only those whose level is within `max` and whose
category is not one of `denied`. -/
def filtered (max : Option Level) (denied : List String) : Logger :=
  ⟨fun level category => level.within max && !denied.contains category, fun _ => true, true⟩

/-- The logger that hands events on to a subscriber with a maximum level. -/
def trace (max : Option Level) : Logger :=
  ⟨fun level _ => level.within max, fun level => level.within max, false⟩

/-- The name under which a subscriber sees the events. -/
def traceTarget : String := "log_meter"

/-- The events that arrive behind a logger. -/
def arriving (l : Logger) (events : List Event) : List Event := events.filter (l.arrives ·.level)

/-- The events that a recorder behind a logger keeps. -/
def recorded (l : Logger) (events : List Event) : List Event := if l.records then events else []

end Logger
end Metering
