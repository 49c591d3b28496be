import Metering.Duration

/-!
# Configurations

What the meters of a session print, and how often. By default progress is reported at most every two
seconds, and a readable message shows the status and nothing that can be switched on.
-/

namespace Metering

/-- The texts around the text of an event. -/
structure Affixes where
  /-- The text in front. -/
  before : String := ""
  /-- The text behind. -/
  after : String := ""
  deriving DecidableEq, Inhabited

/-- A text between its affixes. -/
def Affixes.wrap (a : Affixes) (text : String) : String := a.before ++ text ++ a.after

/-- What the meters of a session print. -/
structure Config where
  /-- The time that has to pass between two reports of progress. -/
  progressPeriod : Duration := .ofMillis 2000
  /-- Whether readable messages are logged. -/
  printStatus : Bool := true
  /-- Whether a readable message shows the category in front of an operation. -/
  printCategory : Bool := false
  /-- Whether a readable message shows the position. -/
  printPosition : Bool := false
  /-- Whether a readable message shows the load of the system. -/
  printLoad : Bool := false
  /-- Whether a readable message shows the memory of the process. -/
  printMemory : Bool := false
  /-- The texts around a readable message. -/
  messageAffixes : Affixes := {}
  /-- The texts around the data. -/
  dataAffixes : Affixes := {}
  deriving DecidableEq, Inhabited

/-- Whether a readable message shows a metric. -/
def Config.needsMetrics (c : Config) : Bool := c.printStatus && (c.printLoad || c.printMemory)

end Metering
