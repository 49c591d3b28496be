import Metering.Snapshot

/-!
# Payloads

A payload is the form in which a snapshot travels inside a log line: a JSON object with one short
key for each field, in a fixed order, and without the fields that have their default. The outcome is
spread over four keys, of which a success without a path shows none: it is told from an unresolved
operation by its stop time. A load that is not finite cannot be written and counts as zero.
-/

namespace Metering

/-- A field of a payload. -/
inductive Field where
  /-- The session. -/
  | session
  /-- The category. -/
  | category
  /-- The operation. -/
  | operation
  /-- The parent. -/
  | parent
  /-- The position. -/
  | position
  /-- The description. -/
  | description
  /-- The time of creation. -/
  | createTime
  /-- The time of the last start. -/
  | startTime
  /-- The time of the last resolution. -/
  | stopTime
  /-- The time of the last change. -/
  | lastTime
  /-- The time limit. -/
  | timeLimit
  /-- The completed iterations. -/
  | iteration
  /-- The expected iterations. -/
  | expected
  /-- The path of a success. -/
  | okPath
  /-- The path of a rejection. -/
  | rejectPath
  /-- The path of a failure. -/
  | failPath
  /-- The message of a failure. -/
  | failMessage
  /-- The context. -/
  | context
  /-- The memory of the system. -/
  | systemMemory
  /-- The memory of the process. -/
  | processMemory
  /-- The processor time. -/
  | cpuTime
  /-- The load of the system. -/
  | load
  deriving DecidableEq

namespace Field

/-- The key of a field. -/
def key : Field → String
  | .session => "_"
  | .category => "c"
  | .operation => "n"
  | .parent => "ep"
  | .position => "#"
  | .description => "d"
  | .createTime => "t0"
  | .startTime => "t1"
  | .stopTime => "t2"
  | .lastTime => "t"
  | .timeLimit => "tl"
  | .iteration => "i"
  | .expected => "ei"
  | .okPath => "ok"
  | .rejectPath => "rj"
  | .failPath => "fl"
  | .failMessage => "fm"
  | .context => "ctx"
  | .systemMemory => "sm"
  | .processMemory => "pm"
  | .cpuTime => "ct"
  | .load => "sl"

/-- The fields in the order in which they are written. -/
def all : List Field :=
  [.session, .category, .operation, .parent, .position, .description, .createTime, .startTime,
    .stopTime, .lastTime, .timeLimit, .iteration, .expected, .okPath, .rejectPath, .failPath,
    .failMessage, .context, .systemMemory, .processMemory, .cpuTime, .load]

/-- The field with a key, if there is one. -/
def ofKey? (key : String) : Option Field := all.find? (·.key == key)

end Field

/-- The contents of a payload. -/
structure Payload where
  /-- The session. -/
  session : Option String := none
  /-- The category. -/
  category : String := ""
  /-- The operation. -/
  operation : Option String := none
  /-- The parent. -/
  parent : Option String := none
  /-- The position. -/
  position : UInt64 := 0
  /-- The description. -/
  description : Option String := none
  /-- The time of creation. -/
  createTime : UInt64 := 0
  /-- The time of the last start. -/
  startTime : UInt64 := 0
  /-- The time of the last resolution. -/
  stopTime : UInt64 := 0
  /-- The time of the last change. -/
  lastTime : UInt64 := 0
  /-- The time limit. -/
  timeLimit : UInt64 := 0
  /-- The completed iterations. -/
  iteration : UInt64 := 0
  /-- The expected iterations. -/
  expected : UInt64 := 0
  /-- The path of a success. -/
  okPath : Option String := none
  /-- The path of a rejection. -/
  rejectPath : Option String := none
  /-- The path of a failure. -/
  failPath : Option String := none
  /-- The message of a failure. -/
  failMessage : Option String := none
  /-- The context. -/
  context : Context := .empty
  /-- The memory of the system. -/
  systemMemory : Words 3 := .zero 3
  /-- The memory of the process. -/
  processMemory : Words 2 := .zero 2
  /-- The processor time. -/
  cpuTime : Words 2 := .zero 2
  /-- The load of the system. -/
  load : Binary64 := .zero
  deriving DecidableEq, Inhabited

namespace Payload

/-! ## Between payloads and snapshots -/

/-- The payload of a snapshot. -/
def ofSnapshot (s : Snapshot) : Payload where
  session := s.session
  category := s.category
  operation := s.operation
  parent := s.parent
  position := s.position
  description := s.description
  createTime := s.createTime
  startTime := s.startTime
  stopTime := s.stopTime
  lastTime := s.lastTime
  timeLimit := s.timeLimit
  iteration := s.iteration
  expected := s.expected
  okPath := match s.outcome with
    | .ok path => path
    | _ => none
  rejectPath := match s.outcome with
    | .reject path => some path
    | _ => none
  failPath := match s.outcome with
    | .fail path _ => some path
    | _ => none
  failMessage := match s.outcome with
    | .fail _ message => message
    | _ => none
  context := s.context
  systemMemory := s.metrics.systemMemory
  processMemory := s.metrics.processMemory
  cpuTime := s.metrics.cpuTime
  load := if s.metrics.load.isFinite then s.metrics.load else .zero

/-- The outcome that a payload tells. A failure goes before a rejection, and both before a success,
which is also told by a stop time alone. -/
def outcome (p : Payload) : Outcome :=
  match p.failPath, p.rejectPath with
  | some path, _ => .fail path p.failMessage
  | none, some path => .reject path
  | none, none => if p.okPath.isSome || p.stopTime != 0 then .ok p.okPath else .unset

/-- The snapshot that a payload tells. -/
def toSnapshot (p : Payload) : Snapshot where
  session := p.session
  category := p.category
  operation := p.operation
  parent := p.parent
  position := p.position
  description := p.description
  createTime := p.createTime
  startTime := p.startTime
  stopTime := p.stopTime
  lastTime := p.lastTime
  timeLimit := p.timeLimit
  iteration := p.iteration
  expected := p.expected
  outcome := p.outcome
  context := p.context
  metrics := ⟨p.systemMemory, p.processMemory, p.cpuTime, p.load⟩

end Payload
end Metering
