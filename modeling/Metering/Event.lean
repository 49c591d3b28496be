import Metering.Transition

/-!
# Events

An event is one entry of a log. A recorder keeps all events that it is given.
-/

namespace Metering

/-- An entry of a log. -/
structure Event where
  /-- How urgent the event is. -/
  level : Level
  /-- What the event is about. -/
  marker : Marker
  /-- The category of the operation that it concerns. -/
  category : String
  /-- The text of the event. -/
  message : String
  /-- Whether the place of the call that caused it is attached. -/
  hasCaller : Bool
  deriving DecidableEq, Inhabited

/-- A log that keeps the events it is given, the oldest first. -/
structure Recorder where
  /-- The events. -/
  events : List Event := []
  deriving DecidableEq, Inhabited

namespace Recorder

/-- Keeps one more event. -/
def log (r : Recorder) (e : Event) : Recorder := ⟨r.events ++ [e]⟩

/-- The events with a marker. -/
def withMarker (r : Recorder) (m : Marker) : List Event := r.events.filter (·.marker == m)

/-- The number of events with a marker. -/
def count (r : Recorder) (m : Marker) : Nat := (r.withMarker m).length

/-- Forgets all events. -/
def clear (_ : Recorder) : Recorder := {}

end Recorder

end Metering
