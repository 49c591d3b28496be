import Metering.Config.Basic
import Metering.Snapshot
import Metering.Transition
import Metering.Units

/-!
# Readable messages

The readable message of a transition is a line of parts with semicolons between them: what
happened to which operation, the execution time, the iterations and their rate, the message of a
failure, the context, the memory and the load. A part is there only if the snapshot has something
to show and, for the last two, if the configuration asks for it.
-/

namespace Metering.Message

/-- The path behind the label of a terminal transition. -/
def pathPart (t : Transition) (s : Snapshot) : String :=
  if t.isTerminal then
    match s.outcome.path with
    | some path => "[" ++ path ++ "]"
    | none => ""
  else ""

/-- The operation, or the category of an operation without a name. -/
def namePart (c : Config) (s : Snapshot) : String :=
  match s.operation with
  | some operation => if c.printCategory then s.category ++ "/" ++ operation else operation
  | none => s.category

/-- The position. -/
def positionPart (c : Config) (s : Snapshot) : String :=
  if c.printPosition then "#" ++ Units.numberText s.position else ""

/-- The description. -/
def descriptionPart (s : Snapshot) : String :=
  match s.description with
  | some description => " '" ++ description ++ "'"
  | none => ""

/-- The execution time, which a start does not have yet; the time limit where it was exceeded. -/
def timePart (t : Transition) (s : Snapshot) : String :=
  match t with
  | .started => ""
  | .slow => "; " ++ Units.nanos s.executionTime ++ " (limit " ++ Units.nanos s.timeLimit ++ ")"
  | _ => "; " ++ Units.nanos s.executionTime

/-- The iterations, how many are expected, and their rate. -/
def iterationPart (s : Snapshot) : String :=
  if s.iteration = 0 then ""
  else
    "; " ++ Units.numberText s.iteration ++
    (if s.expected = 0 then "" else "/" ++ Units.numberText s.expected) ++
    (if s.executionTime = 0 then "" else "; " ++ Units.rate s.rate)

/-- The message of a failure. -/
def failurePart (s : Snapshot) : String :=
  match s.outcome.failMessage with
  | some message => "; " ++ message
  | none => ""

/-- An entry of the context; one without a value is a name alone. -/
def entryText (entry : String × String) : String :=
  if entry.2 = "" then entry.1 else entry.1 ++ "=" ++ entry.2

/-- The context. -/
def contextPart (s : Snapshot) : String :=
  if s.context.isEmpty then ""
  else "; " ++ String.intercalate ", " (s.context.entries.map entryText)

/-- The memory of the process. -/
def memoryPart (c : Config) (s : Snapshot) : String :=
  if c.printMemory && s.metrics.residentMemory != 0 then
    "; " ++ Units.bytes s.metrics.residentMemory
  else ""

/-- The load of the system. -/
def loadPart (c : Config) (s : Snapshot) : String :=
  if c.printLoad then "; load " ++ String.ofList s.metrics.load.fixedText else ""

/-- The readable message of a transition. -/
def render (t : Transition) (c : Config) (s : Snapshot) : String :=
  t.label ++ pathPart t s ++ ": " ++ namePart c s ++ positionPart c s ++ descriptionPart s ++
    timePart t s ++ iterationPart s ++ failurePart s ++ contextPart s ++ memoryPart c s ++
    loadPart c s

end Metering.Message
