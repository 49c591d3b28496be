import Metering.Payload.Reader
import Metering.Payload.Writer

/-!
# Snapshots in log lines

A snapshot is written as a payload and read back from one. A log line may have other text around
the payload: the payload reaches from the first opening to the last closing brace of the line.
-/

namespace Metering

/-- Why no snapshot can be read from a text. -/
inductive LineError where
  /-- The line has no payload. -/
  | missingPayload (line : String)
  /-- The payload cannot be read. -/
  | malformed (fault : Json.Fault)
  deriving DecidableEq

namespace LineError

/-- The message of an error. -/
def message : LineError → String
  | .missingPayload line => "no meter data payload found in line: '" ++ line ++ "'"
  | .malformed fault => "malformed meter data payload: " ++ fault.message

/-- The text of the error behind this one, if there is one. -/
def source : LineError → Option String
  | .missingPayload _ => none
  | .malformed fault => some fault.message

end LineError

/-- The part of a line from its first opening brace up to and with its last closing brace. The part
is empty if that closing brace stands right before the opening one, and there is none if it stands
further ahead or if the line lacks one of the braces. -/
def payloadSection (line : List Char) : Option (List Char) :=
  let before := line.takeWhile (· != '\x7b')
  let through := (line.reverse.dropWhile (· != '\x7d')).reverse
  if '\x7b' ∈ line ∧ '\x7d' ∈ line ∧ before.length ≤ through.length then
    some (through.drop before.length)
  else none

namespace Snapshot

/-- The text of a snapshot. -/
def encode (s : Snapshot) : String := String.ofList (Payload.ofSnapshot s).text

/-- The snapshot that a list of characters shows. -/
def decodeChars (text : List Char) : Except LineError Snapshot :=
  match Payload.parse text with
  | .ok p => .ok p.toSnapshot
  | .error fault => .error (.malformed fault)

/-- The snapshot that a text shows. -/
def decode (text : String) : Except LineError Snapshot := decodeChars text.toList

/-- The snapshot that a log line carries. -/
def parseLine (line : String) : Except LineError Snapshot :=
  match payloadSection line.toList with
  | none => .error (.missingPayload line)
  | some text => decodeChars text

/-- Numeric equality: all fields are equal, and the loads are the same number. -/
def same (a b : Snapshot) : Bool :=
  let load := Binary64.zero
  { a with metrics := { a.metrics with load } } == { b with metrics := { b.metrics with load } } &&
    a.metrics.load.same b.metrics.load

end Snapshot
end Metering
