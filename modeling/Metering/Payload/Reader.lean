import Metering.Payload.Basic

/-!
# Reading payloads

A payload is read from a JSON object, in which the fields may stand in any order and other keys are
skipped, or from an array of the fields in the order in which they are written. A field that is
missing has its default; a field that is given twice is refused.
-/

namespace Metering.Payload

open Json

/-- Reads the value of a field into a payload. -/
def readField (p : Payload) (f : Field) : Reader Payload := fun s =>
  match f with
  | .session => do let (x, r) ← readOptional readText s; .ok ({ p with session := x }, r)
  | .category => do let (x, r) ← readText s; .ok ({ p with category := x }, r)
  | .operation => do let (x, r) ← readOptional readText s; .ok ({ p with operation := x }, r)
  | .parent => do let (x, r) ← readOptional readText s; .ok ({ p with parent := x }, r)
  | .position => do let (x, r) ← readWord s; .ok ({ p with position := x }, r)
  | .description => do let (x, r) ← readOptional readText s; .ok ({ p with description := x }, r)
  | .createTime => do let (x, r) ← readWord s; .ok ({ p with createTime := x }, r)
  | .startTime => do let (x, r) ← readWord s; .ok ({ p with startTime := x }, r)
  | .stopTime => do let (x, r) ← readWord s; .ok ({ p with stopTime := x }, r)
  | .lastTime => do let (x, r) ← readWord s; .ok ({ p with lastTime := x }, r)
  | .timeLimit => do let (x, r) ← readWord s; .ok ({ p with timeLimit := x }, r)
  | .iteration => do let (x, r) ← readWord s; .ok ({ p with iteration := x }, r)
  | .expected => do let (x, r) ← readWord s; .ok ({ p with expected := x }, r)
  | .okPath => do let (x, r) ← readOptional readText s; .ok ({ p with okPath := x }, r)
  | .rejectPath => do let (x, r) ← readOptional readText s; .ok ({ p with rejectPath := x }, r)
  | .failPath => do let (x, r) ← readOptional readText s; .ok ({ p with failPath := x }, r)
  | .failMessage => do let (x, r) ← readOptional readText s; .ok ({ p with failMessage := x }, r)
  | .context => do let (x, r) ← Context.read s; .ok ({ p with context := x }, r)
  | .systemMemory => do let (x, r) ← readWords 3 s; .ok ({ p with systemMemory := x }, r)
  | .processMemory => do let (x, r) ← readWords 2 s; .ok ({ p with processMemory := x }, r)
  | .cpuTime => do let (x, r) ← readWords 2 s; .ok ({ p with cpuTime := x }, r)
  | .load => do
    let (x, r) ← readOptional readReal s
    .ok ({ p with load := x.getD .zero }, r)

/-- A payload that is being read, with the fields that have been given. -/
structure Gathered where
  /-- The payload so far. -/
  payload : Payload := {}
  /-- The fields that have been given. -/
  seen : List Field := []

/-- Reads the member with the given key. -/
def readMember (g : Gathered) (key : String) : Reader Gathered := fun s =>
  match Field.ofKey? key with
  | none => do .ok (g, ← skipValue (← readColon s))
  | some f =>
    if f ∈ g.seen then .error (.duplicateField key)
    else do
      let (p, r) ← readField g.payload f (← readColon s)
      .ok (⟨p, f :: g.seen⟩, r)

/-- Reads the given fields from the elements of an array, as far as there are elements. -/
def readElements (p : Payload) (isFirst : Bool) : List Field → Reader Payload
  | [], s => .ok (p, s)
  | f :: fs, s => do
    match ← nextElement isFirst s with
    | none => .ok (p, s)
    | some s =>
      let (p, s) ← readField p f s
      readElements p false fs s

/-- Reads a payload from an object or an array. -/
def read : Reader Payload := fun s =>
  match skipSpaces s with
  | [] => .error .endOfValue
  | '\x7b' :: r => do
    let (g, r) ← readMembers readMember {} r
    .ok (g.payload, r)
  | '[' :: r => do
    let (p, r) ← readElements {} true Field.all r
    .ok (p, ← closeList r)
  | c :: r => .error (mismatch .payload c r)

/-- The payload that a text shows. -/
def parse (text : List Char) : Except Fault Payload := readAll read text

end Metering.Payload
