import Metering.Binary64.Basic
import Metering.Words

/-!
# Process and system metrics

A sample of the memory, processor time and load that were in force when an event was emitted. A
metric that is not available is zero.
-/

namespace Metering

/-- A sample of metrics. -/
structure Metrics where
  /-- The memory of the system in bytes: used, available and in total. -/
  systemMemory : Words 3
  /-- The memory of the process in bytes: resident and virtual. -/
  processMemory : Words 2
  /-- The processor time in nanoseconds: of the process and of the thread. -/
  cpuTime : Words 2
  /-- The load average of the system. -/
  load : Binary64
  deriving DecidableEq, Inhabited

namespace Metrics

/-- The sample in which no metric is available. -/
def zero : Metrics := ⟨.zero 3, .zero 2, .zero 2, .zero⟩

/-- The resident memory of the process. -/
def residentMemory (m : Metrics) : UInt64 := m.processMemory.toList.headD 0

/-- Whether no metric carries a value. -/
def isEmpty (m : Metrics) : Bool :=
  m.systemMemory.isZero && m.processMemory.isZero && m.cpuTime.isZero && m.load.isZero

end Metrics
end Metering
