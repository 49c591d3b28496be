import Metering.ActiveStack
import Metering.Config.Basic
import Metering.Logger
import Metering.Message
import Metering.Misuse
import Metering.Payload.Line
import Metering.TypeName

/-!
# Meters

A meter tracks one execution of an operation. Its calls change its snapshot, make it active or
inactive on its thread, and log events: reports of misuse first, then the readable message and the
data of the transition that the call makes. Nothing is ever refused outright; a call that makes no
sense is reported and has no further effect, and a call out of order is reported and carried out.
-/

namespace Metering

/-- A meter. -/
structure Meter where
  /-- What is known about the execution. -/
  snapshot : Snapshot
  /-- The number of the session that the meter came from. -/
  session : Nat
  /-- The path that a success without a path of its own takes. -/
  okPath : Option String := none
  /-- The clock at the last start or report of progress. -/
  lastProgress : UInt64 := 0
  /-- Whether the meter is active on its thread. -/
  active : Bool := false
  deriving DecidableEq, Inhabited

/-- What a meter sees of its surroundings during a call. -/
structure Surroundings where
  /-- The clock. -/
  now : UInt64
  /-- The metrics in force. -/
  metrics : Metrics
  /-- The configuration of the session. -/
  config : Config
  /-- Which events are wanted. -/
  enabled : Enabled

/-- A meter during a call, with what the call may change around it. -/
structure Focus where
  /-- The meter. -/
  meter : Meter
  /-- The active meters of the thread. -/
  stack : ActiveStack
  /-- The events that the call has logged so far. -/
  events : List Event := []

/-- A value that can be attached to a context. -/
inductive ContextValue where
  /-- A text. -/
  | text (s : String)
  /-- A truth value. -/
  | bool (b : Bool)
  /-- An integer. -/
  | integer (n : Int)
  /-- A binary64 number. -/
  | real (x : Binary64)
  deriving DecidableEq

/-- The text that a value is attached as. -/
def ContextValue.display : ContextValue → String
  | .text s => s
  | .bool true => "true"
  | .bool false => "false"
  | .integer n => Json.integerText n
  | .real x => String.ofList x.plainText

/-- A call on a meter. -/
inductive Call where
  /-- Describes the operation for people. -/
  | description (text : String)
  /-- Sets the execution time above which a success is slow. -/
  | limit (d : Duration)
  /-- Sets the same in milliseconds. -/
  | limitMillis (n : UInt64)
  /-- Sets the number of iterations that are expected. -/
  | expect (n : UInt64)
  /-- Starts the operation. -/
  | start
  /-- Counts one iteration. -/
  | increment
  /-- Counts iterations. -/
  | incrementBy (n : UInt64)
  /-- Sets the number of iterations. -/
  | incrementTo (n : UInt64)
  /-- Reports progress. -/
  | progress
  /-- Attaches a value to the context. -/
  | attach (name : String) (value : ContextValue)
  /-- Attaches a name without a value. -/
  | flag (name : String)
  /-- Attaches a value that may be absent. -/
  | attachOptional (name : String) (value : Option String)
  /-- Attaches a name if a condition holds. -/
  | flagIf (condition : Bool) (name : String)
  /-- Attaches one of two names. -/
  | flagEither (condition : Bool) (yes no : String)
  /-- Removes a name from the context. -/
  | detach (name : String)
  /-- Sets the path that a success without a path of its own takes. -/
  | setPath (path : String)
  /-- Records success. -/
  | ok
  /-- Records success on a path. -/
  | okPath (path : String)
  /-- Records a rejection. -/
  | reject (path : String)
  /-- Records failure because of an error. -/
  | fail (failure : Failure)
  /-- Records failure on a path, with a message. -/
  | failPath (path message : String)
  deriving DecidableEq

/-- The name that stands for an empty one. -/
def emptyName : String := "NULL_VALUE"

/-- The text that stands for an absent value. -/
def absentValue : String := "<null>"

/-- The path of an operation that ended because its closure panicked. -/
def panicPath : String := "panic"

/-- The path of an operation whose meter was dropped without an outcome. -/
def dropPath : String := "try-with-resources"

/-- The message of an operation whose meter was dropped while its thread was unwinding. -/
def unwindingMessage : String := "panicking"

/-- The name under which a value is attached. -/
def attachedName (name : String) : String := if name = "" then emptyName else name

namespace Focus

/-- The snapshot of the meter. -/
def snapshot (f : Focus) : Snapshot := f.meter.snapshot

/-- Changes the snapshot of the meter. -/
def update (f : Focus) (change : Snapshot → Snapshot) : Focus :=
  { f with meter := { f.meter with snapshot := change f.meter.snapshot } }

/-- Reports a misuse, if there is one. -/
def report (f : Focus) : Option Misuse → Focus
  | none => f
  | some m => { f with events := f.events ++ [m.event f.snapshot] }

/-- Carries out a change unless it is a misuse, which is reported instead. -/
def guarded (f : Focus) (misuse : Option Misuse) (change : Focus → Focus) : Focus :=
  match misuse with
  | none => change f
  | some _ => f.report misuse

/-! ## Logging a transition -/

/-- Whether the readable message of a transition is wanted. -/
def wantsMessage (around : Surroundings) (t : Transition) (s : Snapshot) : Bool :=
  around.config.printStatus && around.enabled t.level s.category

/-- Whether the data of a transition are wanted. -/
def wantsData (around : Surroundings) (s : Snapshot) : Bool := around.enabled .trace s.category

/-- The readable message of a transition. -/
def messageEvent (around : Surroundings) (t : Transition) (s : Snapshot) : Event where
  level := t.level
  marker := .message t
  category := s.category
  message := around.config.messageAffixes.wrap (Message.render t around.config s)
  hasCaller := false

/-- The data of a transition. -/
def dataEvent (around : Surroundings) (t : Transition) (s : Snapshot) : Event where
  level := .trace
  marker := .data t
  category := s.category
  message := around.config.dataAffixes.wrap s.encode
  hasCaller := false

/-- Logs what is wanted of a transition. The metrics are sampled only if something is wanted that
shows them. -/
def emit (around : Surroundings) (t : Transition) (f : Focus) : Focus :=
  let message := wantsMessage around t f.snapshot
  let data := wantsData around f.snapshot
  if !message && !data then f
  else
    let f :=
      if data || around.config.needsMetrics then
        f.update fun s => { s with metrics := around.metrics }
      else f
    { f with
      events := f.events ++
        (if message then [messageEvent around t f.snapshot] else []) ++
        (if data then [dataEvent around t f.snapshot] else []) }

/-! ## Becoming active and inactive -/

/-- Makes the meter active, unless it is or the operation is already resolved. -/
def activate (f : Focus) : Focus :=
  if f.meter.active || f.snapshot.outcome.isResolved then f
  else { f with meter := { f.meter with active := true }, stack := f.stack.push f.snapshot.fullId }

/-- Makes the meter inactive. -/
def deactivate (f : Focus) : Focus :=
  if f.meter.active then
    { f with
      meter := { f.meter with active := false }
      stack := f.stack.remove f.snapshot.fullId }
  else f

/-! ## The calls -/

/-- Notes the time of a start. -/
def noteStart (around : Surroundings) (f : Focus) : Focus :=
  let f := f.update fun s => { s with startTime := around.now, lastTime := around.now }
  { f with meter := { f.meter with lastProgress := around.now } }

/-- Starts the operation. -/
def start (around : Surroundings) (f : Focus) : Focus :=
  ((f.report f.snapshot.misuseOfStart).noteStart around).activate.emit around .started

/-- The transition that a resolution makes. -/
def terminal (s : Snapshot) : Transition :=
  match s.outcome with
  | .ok _ => if s.isSlow then .slow else .ok
  | .reject _ => .reject
  | .fail .. => .fail
  | .unset => .fail

/-- Notes an outcome and its time. -/
def noteOutcome (around : Surroundings) (outcome : Outcome) (f : Focus) : Focus :=
  f.update fun s => { s with stopTime := around.now, lastTime := around.now, outcome := outcome }

/-- Resolves the operation. -/
def resolve (around : Surroundings) (outcome : Outcome) (attempt : Attempt) (f : Focus) : Focus :=
  let f := f.report (f.snapshot.misuseOfResolve (.inconsistent attempt))
  let f := (f.noteOutcome around outcome).deactivate
  f.emit around (terminal f.snapshot)

/-- Sets the time limit. -/
def limit (d : Duration) (f : Focus) : Focus :=
  f.guarded (f.snapshot.misuseOfPositive "time limit" d.toWord) fun f =>
    f.update fun s => { s with timeLimit := d.toWord }

/-- Counts iterations. -/
def incrementBy (n : UInt64) (f : Focus) : Focus :=
  f.guarded (f.snapshot.misuseOfIncrementBy n) fun f =>
    (f.report f.snapshot.misuseOfIncrement).update fun s =>
      { s with iteration := Word.satAdd s.iteration n }

/-- Sets the number of iterations. -/
def incrementTo (n : UInt64) (f : Focus) : Focus :=
  f.guarded (f.snapshot.misuseOfIncrementTo n) fun f =>
    (f.report f.snapshot.misuseOfIncrement).update fun s => { s with iteration := n }

/-- Whether enough time has passed for another report of progress. -/
def progressDue (around : Surroundings) (m : Meter) : Bool :=
  let period := around.config.progressPeriod.toWord
  period == 0 || period ≤ Word.satSub around.now m.lastProgress

/-- Notes the time of a report of progress. -/
def noteProgress (around : Surroundings) (f : Focus) : Focus :=
  let f := f.update fun s => { s with lastTime := around.now }
  { f with meter := { f.meter with lastProgress := around.now } }

/-- Reports progress, if the operation is running and enough time has passed. -/
def progress (around : Surroundings) (f : Focus) : Focus :=
  f.guarded f.snapshot.misuseOfProgress fun f =>
    if f.snapshot.isStopped || !progressDue around f.meter then f
    else (f.noteProgress around).emit around .progress

/-- Attaches a value to the context. -/
def attach (name value : String) (f : Focus) : Focus :=
  f.update fun s => { s with context := s.context.insert (attachedName name) value }

/-- Carries out a call. -/
def perform (around : Surroundings) (f : Focus) : Call → Focus
  | .description text => f.update fun s => { s with description := some text }
  | .limit d => f.limit d
  | .limitMillis n => f.limit (.ofMillis n.toNat)
  | .expect n =>
    f.guarded (f.snapshot.misuseOfPositive "expected iterations" n) fun f =>
      f.update fun s => { s with expected := n }
  | .start => f.start around
  | .increment => f.incrementBy 1
  | .incrementBy n => f.incrementBy n
  | .incrementTo n => f.incrementTo n
  | .progress => f.progress around
  | .attach name value => f.attach name value.display
  | .flag name => f.attach name ""
  | .attachOptional name value => f.attach name (value.getD absentValue)
  | .flagIf condition name => if condition then f.attach name "" else f
  | .flagEither condition yes no => f.attach (if condition then yes else no) ""
  | .detach name =>
    f.update fun s => { s with context := s.context.erase (attachedName name) }
  | .setPath path => { f with meter := { f.meter with okPath := some path } }
  | .ok => f.resolve around (.ok f.meter.okPath) .ok
  | .okPath path => f.resolve around (.ok (some path)) .ok
  | .reject path => f.resolve around (.reject path) .reject
  | .fail failure => f.resolve around (.fail failure.path (some failure.text)) .fail
  | .failPath path message => f.resolve around (.fail path (some message)) .fail

/-- Drops the meter: an operation that is not resolved has failed. -/
def drop (around : Surroundings) (unwinding : Bool) (f : Focus) : Focus :=
  let f :=
    if f.snapshot.outcome.isResolved then f
    else
      let message := if unwinding then some unwindingMessage else none
      f.resolve around (.fail dropPath message) .fail
  f.deactivate

end Focus
end Metering
