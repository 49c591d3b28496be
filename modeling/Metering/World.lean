import Metering.Meter
import Metering.Session

/-!
# Worlds

A world is everything that calls on meters can see or change: the clock and the metrics, the
sessions, the meters that were created so far, the active meters of the running thread and of the
threads that wait for it, and the log. A meter is named by its number in the order of creation; a
dropped meter keeps its number. Which events are wanted does not change while a world runs, so it is
given to each operation from outside.

Whatever happens in a world happens by actions, one after another.
-/

namespace Metering

/-- What calls on meters can see or change. -/
structure World where
  /-- The clock as it was set, in nanoseconds. -/
  clock : UInt64 := 1
  /-- The metrics in force. -/
  metrics : Metrics := .zero
  /-- The sessions. -/
  sessions : List Session := []
  /-- The meters in the order of their creation. -/
  meters : List Meter := []
  /-- The active meters of the running thread. -/
  stack : ActiveStack := {}
  /-- The active meters of the threads that wait, the one that goes on first in front. -/
  waiting : List ActiveStack := []
  /-- The events logged so far, the oldest first. -/
  log : List Event := []
  deriving Inhabited

namespace World

/-- The clock as meters read it. It never shows zero, which would mean "not yet". -/
def now (w : World) : UInt64 := if w.clock = 0 then 1 else w.clock

/-- The snapshot of a meter. -/
def snapshot? (w : World) (i : Nat) : Option Snapshot := w.meters[i]?.map (·.snapshot)

/-- What a meter of a session sees during a call. -/
def surroundings (w : World) (enabled : Enabled) (session : Session) : Surroundings where
  now := w.now
  metrics := w.metrics
  config := session.config
  enabled := enabled

/-- Carries out something on a meter. Nothing happens where there is no such meter. -/
def withMeter (w : World) (enabled : Enabled) (i : Nat)
    (act : Surroundings → Focus → Focus) : World :=
  match w.meters[i]? with
  | none => w
  | some m =>
    match w.sessions[m.session]? with
    | none => w
    | some session =>
      let f := act (w.surroundings enabled session) ⟨m, w.stack, []⟩
      { w with meters := w.meters.set i f.meter, stack := f.stack, log := w.log ++ f.events }

/-- Carries out a call on a meter. -/
def call (w : World) (enabled : Enabled) (i : Nat) (c : Call) : World :=
  w.withMeter enabled i fun around f => f.perform around c

/-- Drops a meter. -/
def drop (w : World) (enabled : Enabled) (unwinding : Bool) (i : Nat) : World :=
  w.withMeter enabled i fun around f => f.drop around unwinding

/-- The snapshot of a meter at its creation. -/
def fresh (w : World) (session : Session) (position : UInt64) (category : String)
    (operation parent : Option String) (context : Context) : Snapshot where
  session := some session.id
  category := category
  operation := operation
  parent := parent.or w.stack.current
  position := position
  createTime := w.now
  lastTime := w.now
  context := context

/-- Creates a meter in a session. Without a parent of its own its parent is the innermost active
meter. Nothing happens where there is no such session. -/
def create (w : World) (k : Nat) (category : String) (operation : Option String)
    (parent : Option String) (context : Context) : World :=
  match w.sessions[k]? with
  | none => w
  | some session =>
    let (position, positions) := session.positions.next category operation
    let snapshot := w.fresh session position category operation parent context
    { w with
      sessions := w.sessions.set k { session with positions }
      meters := w.meters ++ [{ snapshot, session := k }] }

/-- The operation that a part of an operation is. -/
def partOperation (s : Snapshot) (name : String) : String :=
  match s.operation with
  | some operation => operation ++ "/" ++ name
  | none => name

/-- Creates a meter for a part of the operation of another meter. -/
def createPart (w : World) (enabled : Enabled) (i : Nat) (name : String) : World :=
  let w := w.withMeter enabled i fun _ f => f.report (f.snapshot.misuseOfPart name)
  match w.meters[i]? with
  | none => w
  | some m =>
    let s := m.snapshot
    w.create m.session s.category (some (partOperation s name)) (some s.fullId) s.context

/-- Turns to a new thread, on which no meter is active. -/
def enterThread (w : World) : World := { w with stack := {}, waiting := w.stack :: w.waiting }

/-- Returns to the thread that waits for the running one. -/
def leaveThread (w : World) : World :=
  match w.waiting with
  | [] => w
  | stack :: waiting => { w with stack, waiting }

/-! ## Actions -/

/-- Something that happens in a world. -/
inductive Action where
  /-- The clock is set. -/
  | setClock (nanos : UInt64)
  /-- The clock moves forward. -/
  | advance (nanos : UInt64)
  /-- Other metrics are in force. -/
  | setMetrics (m : Metrics)
  /-- A meter is created in a session. -/
  | create (session : Nat) (category : String) (operation : Option String)
  /-- A meter is created for a part of the operation of another meter. -/
  | createPart (meter : Nat) (name : String)
  /-- A meter is called. -/
  | call (meter : Nat) (c : Call)
  /-- A meter is dropped, perhaps while its thread is unwinding. -/
  | drop (unwinding : Bool) (meter : Nat)
  /-- A new thread starts to run. -/
  | enterThread
  /-- The running thread ends. -/
  | leaveThread

/-- The world after an action. -/
def act (enabled : Enabled) (w : World) : Action → World
  | .setClock nanos => { w with clock := nanos }
  | .advance nanos => { w with clock := Word.satAdd w.clock nanos }
  | .setMetrics m => { w with metrics := m }
  | .create k category operation => w.create k category operation none .empty
  | .createPart i name => w.createPart enabled i name
  | .call i c => w.call enabled i c
  | .drop unwinding i => w.drop enabled unwinding i
  | .enterThread => w.enterThread
  | .leaveThread => w.leaveThread

/-- The world after actions, one after another. -/
def acts (enabled : Enabled) (w : World) (actions : List Action) : World :=
  actions.foldl (act enabled) w

end World
end Metering
