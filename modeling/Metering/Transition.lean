/-!
# Levels, transitions and markers

A meter logs an event when it makes one of six transitions, and when it is misused. Every event has
a level, which tells how urgent it is, and a marker, which tells what it is about. A transition has
two markers: one for the message that people read and one for the data that programs read.
-/

namespace Metering

/-- How urgent an event is. -/
inductive Level where
  /-- Something is wrong. -/
  | error
  /-- Something deserves attention. -/
  | warn
  /-- Something worth knowing has happened. -/
  | info
  /-- Something has happened that helps to follow the program. -/
  | debug
  /-- The finest detail. -/
  | trace
  deriving DecidableEq, Inhabited

namespace Level

/-- The levels, the most urgent first. -/
def all : List Level := [.error, .warn, .info, .debug, .trace]

/-- The name of a level. -/
def name : Level → String
  | .error => "ERROR"
  | .warn => "WARN"
  | .info => "INFO"
  | .debug => "DEBUG"
  | .trace => "TRACE"

/-- The level with a name, if there is one. -/
def ofName? (name : String) : Option Level := all.find? (·.name == name)

/-- The place of a level, zero for the most urgent. -/
def rank : Level → Nat
  | .error => 0
  | .warn => 1
  | .info => 2
  | .debug => 3
  | .trace => 4

/-- Whether a level is let through where `max` is the least urgent one that is; `none` lets nothing
through. -/
def within (level : Level) (max : Option Level) : Bool :=
  match max with
  | some max => level.rank ≤ max.rank
  | none => false

end Level

/-- A transition that a meter logs. -/
inductive Transition where
  /-- The operation was started. -/
  | started
  /-- The operation reported progress. -/
  | progress
  /-- The operation succeeded in time. -/
  | ok
  /-- The operation succeeded, but took longer than its time limit. -/
  | slow
  /-- The operation was rejected. -/
  | reject
  /-- The operation failed. -/
  | fail
  deriving DecidableEq, Inhabited

namespace Transition

/-- The transitions, in order. -/
def all : List Transition := [.started, .progress, .ok, .slow, .reject, .fail]

/-- The word that a readable message starts with. -/
def label : Transition → String
  | .started => "STARTED"
  | .progress => "PROGRESS"
  | .ok => "OK"
  | .slow => "SLOW"
  | .reject => "REJECT"
  | .fail => "FAIL"

/-- The transition with a label, if there is one. -/
def ofLabel? (label : String) : Option Transition := all.find? (·.label == label)

/-- The level of the readable message. -/
def level : Transition → Level
  | .started => .debug
  | .progress => .info
  | .ok => .info
  | .slow => .warn
  | .reject => .info
  | .fail => .error

/-- Whether the transition ends the operation. -/
def isTerminal : Transition → Bool
  | .started | .progress => false
  | .ok | .slow | .reject | .fail => true

/-- The part of a marker's name that tells the transition. -/
def markerName : Transition → String
  | .started => "START"
  | .progress => "PROGRESS"
  | .ok => "OK"
  | .slow => "SLOW_OK"
  | .reject => "REJECT"
  | .fail => "FAIL"

end Transition

/-- What a call on a meter tried when it did not suit the state of the meter. -/
inductive Attempt where
  /-- To start the operation. -/
  | start
  /-- To count an iteration. -/
  | increment
  /-- To report progress. -/
  | progress
  /-- To record success. -/
  | ok
  /-- To record a rejection. -/
  | reject
  /-- To record a failure. -/
  | fail
  deriving DecidableEq, Inhabited

namespace Attempt

/-- The attempts, in order. -/
def all : List Attempt := [.start, .increment, .progress, .ok, .reject, .fail]

/-- The part of a marker's name that tells the attempt. -/
def markerName : Attempt → String
  | .start => "START"
  | .increment => "INCREMENT"
  | .progress => "PROGRESS"
  | .ok => "OK"
  | .reject => "REJECT"
  | .fail => "FAIL"

end Attempt

/-- What an event is about. -/
inductive Marker where
  /-- The readable message of a transition. -/
  | message (t : Transition)
  /-- The data of a transition. -/
  | data (t : Transition)
  /-- A call that does not suit the state of the meter. -/
  | inconsistent (a : Attempt)
  /-- A call with an argument that makes no sense. -/
  | illegal
  /-- A defect of the library itself. -/
  | bug
  deriving DecidableEq, Inhabited

namespace Marker

/-- The markers, in order. -/
def all : List Marker :=
  Transition.all.map message ++ Transition.all.map data ++ Attempt.all.map inconsistent ++
    [illegal, bug]

/-- The name of a marker. -/
def name : Marker → String
  | .message t => "MSG_" ++ t.markerName
  | .data t => "DATA_" ++ t.markerName
  | .inconsistent a => "INCONSISTENT_" ++ a.markerName
  | .illegal => "ILLEGAL"
  | .bug => "BUG"

/-- The marker with a name, if there is one. -/
def ofName? (name : String) : Option Marker := all.find? (·.name == name)

/-- Whether the event carries data. -/
def isData : Marker → Bool
  | .data _ => true
  | _ => false

/-- Whether the event reports misuse or a defect. -/
def isDiagnostic : Marker → Bool
  | .inconsistent _ | .illegal | .bug => true
  | _ => false

end Marker
end Metering
