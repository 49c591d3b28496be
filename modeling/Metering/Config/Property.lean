import Metering.Config.Basic

/-!
# Configurations from properties

Every field of a configuration has a property, and every property an environment variable. A
property that is absent leaves the default. A flag or a period that cannot be understood leaves the
default as well and is reported by a warning; the affixes are taken as they are.
-/

namespace Metering

/-- A property of a configuration. -/
inductive Property where
  /-- The least time between two reports of progress. -/
  | progressPeriod
  /-- Whether readable messages are logged. -/
  | printStatus
  /-- Whether the category is shown. -/
  | printCategory
  /-- Whether the position is shown. -/
  | printPosition
  /-- Whether the load is shown. -/
  | printLoad
  /-- Whether the memory is shown. -/
  | printMemory
  /-- The text in front of a readable message. -/
  | messageBefore
  /-- The text behind a readable message. -/
  | messageAfter
  /-- The text in front of the data. -/
  | dataBefore
  /-- The text behind the data. -/
  | dataAfter
  deriving DecidableEq

/-- The name of a property. -/
def Property.name : Property → String
  | .progressPeriod => "slf4jtoys.meter.progress.period"
  | .printStatus => "slf4jtoys.meter.print.status"
  | .printCategory => "slf4jtoys.meter.print.category"
  | .printPosition => "slf4jtoys.meter.print.position"
  | .printLoad => "slf4jtoys.meter.print.load"
  | .printMemory => "slf4jtoys.meter.print.memory"
  | .messageBefore => "slf4jtoys.meter.message.prefix"
  | .messageAfter => "slf4jtoys.meter.message.suffix"
  | .dataBefore => "slf4jtoys.meter.data.prefix"
  | .dataAfter => "slf4jtoys.meter.data.suffix"

/-- The environment variable of a property: its name in ASCII upper case, with underscores for the
points. -/
def variableName (property : String) : String :=
  String.ofList ((Text.upper property.toList).map fun c => if c = '.' then '_' else c)

/-- The value of a property or a variable with a name, if there is one. -/
abbrev Lookup := String → Option String

/-- A property that could not be understood. -/
structure Warning where
  /-- The property. -/
  property : Property
  /-- The value as it was given. -/
  value : String
  deriving DecidableEq

/-- The default period as a warning shows it. -/
def periodText : String := "2s"

namespace Warning

/-- The name under which warnings are logged. -/
def target : String := "log_meter::config"

/-- The text of a warning. -/
def message (w : Warning) : String :=
  match w.property with
  | .progressPeriod => "ignoring invalid duration property"
  | _ => "ignoring invalid boolean property"

/-- The default that is used instead, as the warning shows it. -/
def default (w : Warning) : String :=
  match w.property with
  | .progressPeriod => periodText
  | .printStatus => "true"
  | _ => "false"

end Warning

/-- The flag that a text shows, if it shows one. -/
def parseFlag? (text : List Char) : Option Bool :=
  let word := Text.lower (Text.trim text)
  if word = ['t', 'r', 'u', 'e'] then some true
  else if word = ['f', 'a', 'l', 's', 'e'] then some false
  else none

/-- A property is read as a value or the default, with the warnings that this gives. -/
def readProperty {α : Type} (parse? : List Char → Option α) (default : α) (lookup : Lookup)
    (property : Property) : α × List Warning :=
  match lookup property.name with
  | none => (default, [])
  | some value =>
    match parse? value.toList with
    | some x => (x, [])
    | none => (default, [⟨property, value⟩])

namespace Config

/-- The configuration that properties give, with the warnings in the order of the properties. -/
def ofLookup (lookup : Lookup) : Config × List Warning :=
  let start : Config := {}
  let flag := readProperty parseFlag?
  let (progressPeriod, w₁) :=
    readProperty Duration.parse? start.progressPeriod lookup .progressPeriod
  let (printStatus, w₂) := flag start.printStatus lookup .printStatus
  let (printCategory, w₃) := flag start.printCategory lookup .printCategory
  let (printPosition, w₄) := flag start.printPosition lookup .printPosition
  let (printLoad, w₅) := flag start.printLoad lookup .printLoad
  let (printMemory, w₆) := flag start.printMemory lookup .printMemory
  let affix := fun (p : Property) => (lookup p.name).getD ""
  ({ progressPeriod, printStatus, printCategory, printPosition, printLoad, printMemory
     messageAffixes := ⟨affix .messageBefore, affix .messageAfter⟩
     dataAffixes := ⟨affix .dataBefore, affix .dataAfter⟩ },
    w₁ ++ w₂ ++ w₃ ++ w₄ ++ w₅ ++ w₆)

/-- The configuration that environment variables give. A variable whose bytes are not a text counts
as absent. -/
def ofEnvironment (variable' : String → Option ByteArray) : Config × List Warning :=
  ofLookup fun property => (variable' (variableName property)).bind String.fromUTF8?

end Config
end Metering
