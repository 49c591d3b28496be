import Metering.Json.Scan

/-!
# Skipping a JSON value

The value of a key that nobody asked for is passed over, however deeply it is nested. The machine
below keeps the brackets that are open and what is due next. It looks a little less closely than
reading does: numbers may be out of range and halves of surrogate pairs may stand alone.
-/

namespace Metering.Json

/-- A bracket that is open. -/
inductive Bracket where
  /-- A square bracket. -/
  | list
  /-- A brace. -/
  | object
  deriving DecidableEq

/-- What is due next while a value is skipped. -/
inductive Due where
  /-- A value. -/
  | value
  /-- A key with its colon. -/
  | key
  /-- The first element or member, or the end, of the bracket that was opened last. -/
  | first
  /-- A comma, or the end, of the bracket that was opened last. -/
  | next
  deriving DecidableEq

/-- The machine that skips: what is due, the open brackets, and the rest of the text. -/
structure Skipping where
  /-- What is due next. -/
  due : Due
  /-- The open brackets, the last one first. -/
  opened : List Bracket
  /-- The text that is left. -/
  rest : List Char

/-- Skips a value that is not nested. -/
def skipAtom (c : Char) (r : List Char) : Except Fault (List Char) :=
  match c with
  | 'n' => dropWord ['u', 'l', 'l'] r
  | 't' => dropWord ['r', 'u', 'e'] r
  | 'f' => dropWord ['a', 'l', 's', 'e'] r
  | '"' => skipChars r
  | c =>
    if startsNumeral c then do
      let (_, r) ← readNumeral .badNumeral (c :: r)
      .ok r
    else .error .valueDue

/-- Passes over the next part of a value. -/
def Skipping.step (k : Skipping) : Except Fault Skipping :=
  match k.due, k.opened, skipSpaces k.rest with
  | .value, _, [] => .error .endOfValue
  | .value, bs, '[' :: r => .ok ⟨.first, .list :: bs, r⟩
  | .value, bs, '\x7b' :: r => .ok ⟨.first, .object :: bs, r⟩
  | .value, bs, c :: r => do .ok ⟨.next, bs, ← skipAtom c r⟩
  | .key, _, [] => .error .endOfObject
  | .key, bs, '"' :: r => do
    match skipSpaces (← skipChars r) with
    | [] => .error .endOfObject
    | ':' :: r => .ok ⟨.value, bs, r⟩
    | _ :: _ => .error .colonDue
  | .key, _, _ :: _ => .error .keyDue
  | .first, .list :: _, [] => .error .endOfList
  | .first, .list :: bs, ']' :: r => .ok ⟨.next, bs, r⟩
  | .first, .list :: bs, r => .ok ⟨.value, .list :: bs, r⟩
  | .first, .object :: _, [] => .error .endOfObject
  | .first, .object :: bs, '\x7d' :: r => .ok ⟨.next, bs, r⟩
  | .first, .object :: bs, r => .ok ⟨.key, .object :: bs, r⟩
  | .next, .list :: _, [] => .error .endOfList
  | .next, .list :: bs, ',' :: r => .ok ⟨.value, .list :: bs, r⟩
  | .next, .list :: bs, ']' :: r => .ok ⟨.next, bs, r⟩
  | .next, .list :: _, _ :: _ => .error .elementEnd
  | .next, .object :: _, [] => .error .endOfObject
  | .next, .object :: bs, ',' :: r => .ok ⟨.key, .object :: bs, r⟩
  | .next, .object :: bs, '\x7d' :: r => .ok ⟨.next, bs, r⟩
  | .next, .object :: _, _ :: _ => .error .memberEnd
  | .first, [], _ => .ok k
  | .next, [], _ => .ok k

/-- Steps until nothing is due any more, at most so many times. -/
def Skipping.run : Nat → Skipping → Except Fault (List Char)
  | 0, k => .ok k.rest
  | n + 1, k =>
    match k.due, k.opened with
    | .next, [] => .ok k.rest
    | _, _ => do run n (← k.step)

/-- Skips a value of any kind. Only the first look into a bracket leaves the text as it is, so two
steps for each character are enough. -/
def skipValue (s : List Char) : Except Fault (List Char) :=
  Skipping.run (2 * s.length + 2) ⟨.value, [], s⟩

end Metering.Json
