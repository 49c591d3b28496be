import Metering.World

/-!
# Scripts

A script is a program that uses meters: it creates them and calls them by name, changes the clock
and the metrics, and has the control flow that matters to a meter. Executors run a closure as the
operation of a meter; a panic unwinds scopes, which drop the meters created in them, and executors,
which record a failure; a thread has active meters of its own.

A step may give a record of what it did, which shows the world at that moment. Records of nested
steps come before the record of the step that holds them. `α` is the type of the values that
closures return; nothing depends on them.
-/

namespace Metering

/-- What a closure returns. -/
inductive Returned (α : Type) where
  /-- The closure succeeded with a value. -/
  | ok (value : α)
  /-- The closure failed with an error. -/
  | err (failure : Failure)
  deriving DecidableEq

/-- How a closure is run as the operation of a meter. -/
inductive Executor (α : Type) where
  /-- A closure that cannot fail. -/
  | run
  /-- A closure whose error is handed on. -/
  | call (result : Returned α)
  /-- A closure whose error is handed on inside another one. -/
  | safeCall (result : Returned α)
  /-- A closure whose error rejects the operation if a predicate holds of it. -/
  | callOrReject (result : Returned α) (rejects : Bool)
  deriving DecidableEq

/-- What an executor hands on to its caller. -/
inductive Handed (α : Type) where
  /-- Nothing. -/
  | nothing
  /-- The value of the closure. -/
  | value (value : α)
  /-- The error of the closure. -/
  | error (failure : Failure)
  /-- An error of its own, with the error of the closure as its cause. -/
  | wrapped (cause : Failure)
  deriving DecidableEq

namespace Executor

/-- The call that resolves an operation whose closure has returned. -/
def resolution {α : Type} : Executor α → Call
  | .run => .ok
  | .call (.ok _) | .safeCall (.ok _) | .callOrReject (.ok _) _ => .ok
  | .call (.err f) | .safeCall (.err f) | .callOrReject (.err f) false => .fail f
  | .callOrReject (.err f) true => .reject f.path

/-- What an executor hands on when its closure has returned. -/
def handed {α : Type} : Executor α → Handed α
  | .run => .nothing
  | .call (.ok v) | .safeCall (.ok v) | .callOrReject (.ok v) _ => .value v
  | .call (.err f) | .callOrReject (.err f) _ => .error f
  | .safeCall (.err f) => .wrapped f

/-- Whether the predicate is asked, given whether the operation is already resolved. -/
def asks {α : Type} (resolved : Bool) : Executor α → Bool
  | .callOrReject (.err _) _ => !resolved
  | _ => false

end Executor

/-- What a panic carries: a text, or something that is not a text. -/
inductive PanicPayload where
  /-- A text. -/
  | text (s : String)
  /-- Something else. -/
  | opaqueValue
  deriving DecidableEq

namespace PanicPayload

/-- The text of a payload, if it has one. -/
def text? : PanicPayload → Option String
  | .text s => some s
  | .opaqueValue => none

/-- The message of a failure that a panic caused. -/
def message (p : PanicPayload) : String := p.text?.getD "panic payload is not a string"

end PanicPayload

/-- A step of a script. -/
inductive Step (α : Type) where
  /-- Sets the clock. -/
  | setClock (nanos : UInt64)
  /-- Moves the clock forward. -/
  | advance (nanos : UInt64)
  /-- Sets the metrics. -/
  | setMetrics (m : Metrics)
  /-- Chooses the session that new meters come from. -/
  | useSession (k : Nat)
  /-- Creates a meter for a category or an operation in it. -/
  | create (name category : String) (operation : Option String)
  /-- Creates a meter whose category is the name of a type. -/
  | createFor (name typeName : String)
  /-- Creates a meter for a part of the operation of another. -/
  | createPart (name partName newName : String)
  /-- Calls a meter. -/
  | call (name : String) (c : Call)
  /-- Looks at a meter. -/
  | look (name : String)
  /-- Drops the newest meter of a name. -/
  | drop (name : String)
  /-- Runs steps as the operation of a meter. -/
  | execute (name : String) (e : Executor α) (body : List (Step α))
  /-- Panics. -/
  | panic (payload : PanicPayload)
  /-- Runs steps and drops the meters created in them. -/
  | scope (body : List (Step α))
  /-- Runs steps in a scope and stops a panic. -/
  | catchPanic (body : List (Step α))
  /-- Runs steps on a thread of their own. -/
  | thread (body : List (Step α))
  /-- Counts the recorded events with a marker. -/
  | count (m : Marker)
  /-- Empties the recorder. -/
  | clear
  /-- Shows the configuration of the session that new meters come from. -/
  | showConfig
  /-- Shows the identity of the session that new meters come from. -/
  | showId

instance {α : Type} : Inhabited (Step α) := ⟨.clear⟩

/-- How a list of steps ends. -/
inductive Ending where
  /-- All steps were carried out. -/
  | returned
  /-- A panic was not stopped. -/
  | panicked (payload : PanicPayload)
  deriving DecidableEq

/-- Whether meters are dropped by unwinding. -/
def Ending.unwinding : Ending → Bool
  | .returned => false
  | .panicked _ => true

/-- What a step gives back. -/
inductive Answer (α : Type) where
  /-- Nothing. -/
  | nothing
  /-- Whether there was a meter to drop. -/
  | found (b : Bool)
  /-- What an executor returns, and whether its predicate was asked. -/
  | finished (e : Executor α) (asked : Bool)
  /-- How the steps inside ended. -/
  | ended (e : Ending)
  /-- A number of events. -/
  | counted (n : Nat)
  /-- A configuration. -/
  | config (c : Config)
  /-- The identity of a session. -/
  | identity (id : String)

/-- What a record is about. -/
inductive Occasion (α : Type) where
  /-- A step was carried out. -/
  | did (step : Step α) (answer : Answer α)
  /-- The closure of the meter of this name was entered. -/
  | entered (name : String)
  /-- The meter of this name was dropped at the end of its scope. -/
  | left (name : String)

/-- A record: what happened, and what the world shows at that moment. -/
structure Record (α : Type) where
  /-- What happened. -/
  occasion : Occasion α
  /-- The events logged since the record before. -/
  events : List Event
  /-- The innermost active meter. -/
  current : Option String
  /-- The snapshot of the meter that the record is about. -/
  snapshot : Option Snapshot

/-- A meter with the name that a script knows it by. -/
abbrev Binding := String × Nat

/-- A script in the middle of its run. -/
structure Run (α : Type) where
  /-- The world. -/
  world : World
  /-- The session that new meters come from. -/
  session : Nat := 0
  /-- The meters that are alive, by scope, the innermost scope and the newest meter first. -/
  scopes : List (List Binding) := [[]]
  /-- The number of events that records have shown. -/
  shown : Nat := 0
  /-- The number of events that the recorder has forgotten. -/
  forgotten : Nat := 0
  /-- The records, the oldest first. -/
  records : List (Record α) := []
  /-- What happened in the world so far, the oldest first. -/
  history : List World.Action := []

namespace Run

variable {α : Type}

/-- The newest meter of a name that is alive. -/
def find? (r : Run α) (name : String) : Option Nat := r.scopes.flatten.lookup name

/-- Adds a record. -/
def record (r : Run α) (occasion : Occasion α) (meter : Option Nat) : Run α :=
  { r with
    shown := r.world.log.length
    records := r.records ++ [{
      occasion
      events := r.world.log.drop r.shown
      current := r.world.stack.current
      snapshot := meter.bind r.world.snapshot? }] }

/-- Makes a recorder forget its events; those that no record has shown are lost. -/
def forget (l : Logger) (r : Run α) : Run α :=
  let n := r.world.log.length
  if l.records then { r with forgotten := n, shown := n } else r

/-- Puts a binding into the innermost scope. -/
def bind (b : Binding) : List (List Binding) → List (List Binding)
  | [] => [[b]]
  | scope :: scopes => (b :: scope) :: scopes

/-- Lets an action happen. -/
def act (l : Logger) (r : Run α) (a : World.Action) : Run α :=
  { r with world := r.world.act l.enabled a, history := r.history ++ [a] }

/-- Lets an action happen that may create a meter, which is then known by a name. -/
def adopt (l : Logger) (name : String) (r : Run α) (a : World.Action) : Run α :=
  let n := r.world.meters.length
  let r := r.act l a
  if n < r.world.meters.length then { r with scopes := bind (name, n) r.scopes } else r

/-- Removes the newest meter of a name from a scope. -/
def unbind (name : String) (scope : List Binding) : List Binding := scope.eraseP (·.1 == name)

/-- Removes the newest meter of a name from the innermost scope that has one. -/
def unbindScopes (name : String) : List (List Binding) → List (List Binding)
  | [] => []
  | scope :: scopes =>
    if scope.any (·.1 == name) then unbind name scope :: scopes
    else scope :: unbindScopes name scopes

/-- Drops the meters of a scope, each with a record. -/
def dropAll (l : Logger) (unwinding : Bool) : List Binding → Run α → Run α
  | [], r => r
  | (name, i) :: scope, r =>
    dropAll l unwinding scope ((r.act l (.drop unwinding i)).record (.left name) none)

/-- Opens a scope. -/
def openScope (r : Run α) : Run α := { r with scopes := [] :: r.scopes }

/-- Ends the innermost scope, dropping the meters that are still alive in it. -/
def closeScope (l : Logger) (unwinding : Bool) (r : Run α) : Run α :=
  dropAll l unwinding (r.scopes.headD []) { r with scopes := r.scopes.tail }

/-- Whether the operation of a meter was started. -/
def isStarted (r : Run α) (i : Nat) : Bool := (r.world.snapshot? i).any (·.isStarted)

/-- Whether the operation of a meter is resolved. -/
def isResolved (r : Run α) (i : Nat) : Bool := (r.world.snapshot? i).any (·.outcome.isResolved)

/-- Starts the operation of a meter unless it was started before. -/
def ensureStarted (l : Logger) (i : Nat) (r : Run α) : Run α :=
  if r.isStarted i then r else r.act l (.call i .start)

/-- Resolves the operation of a meter unless it is resolved. -/
def ensureResolved (l : Logger) (i : Nat) (c : Call) (r : Run α) : Run α :=
  if r.isResolved i then r else r.act l (.call i c)

/-- Adds a record of a step. -/
def recordStep (r : Run α) (step : Step α) (answer : Answer α) (meter : Option Nat) : Run α :=
  r.record (.did step answer) meter

/-- Ends the run of a closure: resolves the operation and hands on what the closure ended with. -/
def leaveExecutor (l : Logger) (i : Nat) (step : Step α) (e : Executor α) :
    Run α × Ending → Run α × Ending
  | (r, .panicked payload) =>
    (r.ensureResolved l i (.failPath panicPath payload.message), .panicked payload)
  | (r, .returned) =>
    let asked := e.asks (r.isResolved i)
    let r := r.ensureResolved l i e.resolution
    (r.recordStep step (.finished e asked) (some i), .returned)

/-- Ends the run of a scope. -/
def leaveScope (l : Logger) (step : Step α) : Run α × Ending → Run α × Ending
  | (r, .returned) => ((r.closeScope l false).recordStep step .nothing none, .returned)
  | (r, .panicked payload) => (r.closeScope l true, .panicked payload)

/-- Ends the run of a scope that stops a panic. -/
def leaveCatch (l : Logger) (step : Step α) : Run α × Ending → Run α × Ending
  | (r, ending) =>
    ((r.closeScope l ending.unwinding).recordStep step (.ended ending) none, .returned)

/-- Turns to a new thread, which knows no meters yet. -/
def enterThread (l : Logger) (r : Run α) : Run α :=
  { r.act l .enterThread with scopes := [[]] }

/-- Ends the run of a thread and returns to the one that waits for it, which goes on with its own
meters and its own session. -/
def leaveThread (l : Logger) (step : Step α) (outer : Run α) :
    Run α × Ending → Run α × Ending
  | (r, ending) =>
    let r := (r.closeScope l ending.unwinding).act l .leaveThread
    let r := { r with scopes := outer.scopes, session := outer.session }
    (r.recordStep step (.ended ending) none, .returned)

end Run

mutual

/-- Carries out a step. A step on a meter that is not alive does nothing. -/
def Step.run {α : Type} (l : Logger) (step : Step α) (r : Run α) : Run α × Ending :=
  match step with
  | .setClock nanos => (r.act l (.setClock nanos), .returned)
  | .advance nanos => (r.act l (.advance nanos), .returned)
  | .setMetrics m => (r.act l (.setMetrics m), .returned)
  | .useSession k => ({ r with session := k }, .returned)
  | .create name category operation =>
    let r := r.adopt l name (.create r.session category operation)
    (r.recordStep step .nothing (r.find? name), .returned)
  | .createFor name typeName =>
    let r := r.adopt l name (.create r.session typeName none)
    (r.recordStep step .nothing (r.find? name), .returned)
  | .createPart name partName newName =>
    match r.find? name with
    | none => (r, .returned)
    | some i =>
      let r := r.adopt l newName (.createPart i partName)
      (r.recordStep step .nothing (r.find? newName), .returned)
  | .call name c =>
    match r.find? name with
    | none => (r, .returned)
    | some i => ((r.act l (.call i c)).recordStep step .nothing (some i), .returned)
  | .look name =>
    match r.find? name with
    | none => (r, .returned)
    | some i => (r.recordStep step .nothing (some i), .returned)
  | .drop name =>
    match r.find? name with
    | none => (r.recordStep step (.found false) none, .returned)
    | some i =>
      let r := { r.act l (.drop false i) with scopes := Run.unbindScopes name r.scopes }
      (r.recordStep step (.found true) none, .returned)
  | .execute name e body =>
    match r.find? name with
    | none => (r, .returned)
    | some i =>
      let r := (r.ensureStarted l i).record (.entered name) none
      Run.leaveExecutor l i step e (runSteps l body r)
  | .panic payload => (r, .panicked payload)
  | .scope body => Run.leaveScope l step (runSteps l body r.openScope)
  | .catchPanic body => Run.leaveCatch l step (runSteps l body r.openScope)
  | .thread body => Run.leaveThread l step r (runSteps l body (r.enterThread l))
  | .count m =>
    let recorder : Recorder := ⟨l.recorded (r.world.log.drop r.forgotten)⟩
    (r.recordStep step (.counted (recorder.count m)) none, .returned)
  | .clear => (r.forget l |>.recordStep step .nothing none, .returned)
  | .showConfig =>
    let config := (r.world.sessions[r.session]?.map (·.config)).getD {}
    (r.recordStep step (.config config) none, .returned)
  | .showId =>
    let id := (r.world.sessions[r.session]?.map (·.id)).getD ""
    (r.recordStep step (.identity id) none, .returned)

/-- Carries out steps until one panics. -/
def runSteps {α : Type} (l : Logger) (steps : List (Step α)) (r : Run α) : Run α × Ending :=
  match steps with
  | [] => (r, .returned)
  | step :: steps =>
    match step.run l r with
    | (r, .returned) => runSteps l steps r
    | (r, .panicked payload) => (r, .panicked payload)

end

/-- Runs a script to its end, where the meters that are still alive are dropped. -/
def runScript {α : Type} (l : Logger) (steps : List (Step α)) (w : World) : Run α × Ending :=
  let (r, ending) := runSteps l steps { world := w }
  (r.closeScope l ending.unwinding, ending)

end Metering
