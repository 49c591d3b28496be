import Metering.Payload.Basic

/-!
# Writing payloads

A payload is written as one compact JSON object. A field is written exactly when it does not have
its default.
-/

namespace Metering.Payload

open Json (Value Numeral)

/-- A text that may be absent. -/
def optionalText (s : Option String) : Option Value := s.map .text

/-- A word that is left out where it is zero. -/
def nonZero (n : UInt64) : Option Value :=
  if n = 0 then none else some (.number (.ofNat n.toNat))

/-- Words that are left out where they are all zero. -/
def nonZeros {n : Nat} (w : Words n) : Option Value :=
  if w.isZero then none
  else some (.list (w.toList.map fun x => .number (.ofNat x.toNat)))

/-- The value of a field, if it is written. -/
def value? (p : Payload) : Field → Option Value
  | .session => optionalText p.session
  | .category => if p.category = "" then none else some (.text p.category)
  | .operation => optionalText p.operation
  | .parent => optionalText p.parent
  | .position => nonZero p.position
  | .description => optionalText p.description
  | .createTime => nonZero p.createTime
  | .startTime => nonZero p.startTime
  | .stopTime => nonZero p.stopTime
  | .lastTime => nonZero p.lastTime
  | .timeLimit => nonZero p.timeLimit
  | .iteration => nonZero p.iteration
  | .expected => nonZero p.expected
  | .okPath => optionalText p.okPath
  | .rejectPath => optionalText p.rejectPath
  | .failPath => optionalText p.failPath
  | .failMessage => optionalText p.failMessage
  | .context => if p.context.isEmpty then none else some p.context.toJson
  | .systemMemory => nonZeros p.systemMemory
  | .processMemory => nonZeros p.processMemory
  | .cpuTime => nonZeros p.cpuTime
  | .load => if p.load.isZero then none else some (.number (.ofBinary64 p.load))

/-- The members of a payload, in the order of the fields. -/
def members (p : Payload) : List (String × Value) :=
  Field.all.filterMap fun f => (p.value? f).map (f.key, ·)

/-- The text of a payload. -/
def text (p : Payload) : List Char := (Value.object p.members).render

end Metering.Payload
