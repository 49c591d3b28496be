import Metering.Json.Skip
import Metering.Words

/-!
# Reading JSON straight into typed values

The readers for the kinds of value that a payload holds. A value of the wrong kind is read to its
end if it is a word, a numeral or a text, so that a problem inside it comes first; of an array or an
object only the bracket is looked at.
-/

namespace Metering.Json

/-- The fault of a value of another kind than the one that is due, starting with the given
character. -/
def mismatch (expected : Expected) (c : Char) (r : List Char) : Fault :=
  match c with
  | 'n' => afterWord ['u', 'l', 'l'] .null
  | 't' => afterWord ['r', 'u', 'e'] (.bool true)
  | 'f' => afterWord ['a', 'l', 's', 'e'] (.bool false)
  | '"' =>
    match readTextBody r with
    | .ok (s, _) => .wrongKind (.text s) expected
    | .error fault => fault
  | '[' => .wrongKind .list expected
  | '\x7b' => .wrongKind .object expected
  | c =>
    if startsNumeral c then
      match readNumber (c :: r) with
      | .ok (n, _) => .wrongKind (.number n) expected
      | .error fault => fault
    else .valueDue
where
  /-- The fault of a word that stands where another kind of value is due. -/
  afterWord (w : List Char) (found : Found) : Fault :=
    match dropWord w r with
    | .ok _ => .wrongKind found expected
    | .error fault => fault

/-- Reads a text. -/
def readText : Reader String := fun s =>
  match skipSpaces s with
  | [] => .error .endOfValue
  | '"' :: r => readTextBody r
  | c :: r => .error (mismatch .text c r)

/-- Reads a number of any kind. -/
def readNumberAs (expected : Expected) : Reader Number := fun s =>
  match skipSpaces s with
  | [] => .error .endOfValue
  | c :: r =>
    if startsNumeral c then readNumber (c :: r) else .error (mismatch expected c r)

/-- Reads a natural number of at most so many bits. -/
def readNatural (bits : Nat) : Reader Nat := fun s => do
  match ← readNumberAs (.word bits) s with
  | (.integer n, r) =>
    if 0 ≤ n ∧ n < 2 ^ bits then .ok (n.toNat, r) else .error (.wrongValue n (.word bits))
  | (.real x, _) => .error (.wrongKind (.number (.real x)) (.word bits))

/-- Reads a 64-bit word. -/
def readWord : Reader UInt64 := fun s => do
  let (n, r) ← readNatural 64 s
  .ok (UInt64.ofNat n, r)

/-- Reads a binary64 number. -/
def readReal : Reader Binary64 := fun s => do
  let (n, r) ← readNumberAs .real s
  .ok (n.toBinary64, r)

/-- Reads a value or `null`. -/
def readOptional {α : Type} (read : Reader α) : Reader (Option α) := fun s =>
  match skipSpaces s with
  | 'n' :: r => do .ok (none, ← dropWord ['u', 'l', 'l'] r)
  | _ => do
    let (x, r) ← read s
    .ok (some x, r)

/-! ## Arrays -/

/-- Moves on to the next element of an array: its text, or nothing where the array ends. -/
def nextElement (isFirst : Bool) (s : List Char) : Except Fault (Option (List Char)) :=
  match skipSpaces s with
  | [] => .error .endOfList
  | ']' :: _ => .ok none
  | c :: r =>
    if isFirst then .ok (some (c :: r))
    else if c = ',' then
      match skipSpaces r with
      | [] => .error .endOfValue
      | ']' :: _ => .error .trailingComma
      | r => .ok (some r)
    else .error .elementEnd

/-- Ends an array all of whose elements have been read. -/
def closeList (s : List Char) : Except Fault (List Char) :=
  match skipSpaces s with
  | [] => .error .endOfList
  | ']' :: r => .ok r
  | ',' :: r =>
    match skipSpaces r with
    | ']' :: _ => .error .trailingComma
    | _ => .error .trailingCharacters
  | _ :: _ => .error .trailingCharacters

/-- Reads `k` more words of an array that is to hold `n`, of which `i` have been read. -/
def readWordsFrom (n : Nat) : (i k : Nat) → Reader (Words k)
  | _, 0, s => .ok (.nil, s)
  | i, k + 1, s => do
    match ← nextElement (i == 0) s with
    | none => .error (.wrongLength i (.words n))
    | some s =>
      let (x, s) ← readWord s
      let (xs, s) ← readWordsFrom n (i + 1) k s
      .ok (xs.cons x, s)

/-- Reads an array of exactly `n` words. -/
def readWords (n : Nat) : Reader (Words n) := fun s =>
  match skipSpaces s with
  | [] => .error .endOfValue
  | '[' :: r => do
    let (xs, r) ← readWordsFrom n 0 n r
    .ok (xs, ← closeList r)
  | c :: r => .error (mismatch (.words n) c r)

/-! ## Objects -/

/-- Reads the key of the next member of an object, or nothing where the object ends. -/
def nextKey (isFirst : Bool) : Reader (Option String) := fun s =>
  match skipSpaces s with
  | [] => .error .endOfObject
  | '\x7d' :: r => .ok (none, r)
  | c :: r =>
    if isFirst then
      if c = '"' then key r else .error .keyDue
    else if c = ',' then
      match skipSpaces r with
      | [] => .error .endOfValue
      | '"' :: r => key r
      | '\x7d' :: _ => .error .trailingComma
      | _ :: _ => .error .keyDue
    else .error .memberEnd
where
  /-- Reads a key whose opening quote has been read. -/
  key (r : List Char) : Except Fault (Option String × List Char) := do
    let (k, r) ← readTextBody r
    .ok (some k, r)

/-- Reads the colon between a key and its value. -/
def readColon (s : List Char) : Except Fault (List Char) :=
  match skipSpaces s with
  | [] => .error .endOfObject
  | ':' :: r => .ok r
  | _ :: _ => .error .colonDue

/-- Goes through at most `n` members of an object whose brace has been read. `member` takes what has
been gathered so far and a key, and reads the colon and the value. -/
def foldMembers {σ : Type} (member : σ → String → Reader σ) : Nat → Bool → σ → Reader σ
  | 0, _, _, _ => .error .endOfObject
  | n + 1, isFirst, gathered, s => do
    match ← nextKey isFirst s with
    | (none, r) => .ok (gathered, r)
    | (some k, r) =>
      let (gathered, r) ← member gathered k r
      foldMembers member n false gathered r

/-- Reads the members of an object whose brace has been read. Every member takes at least one
character, so the length of the text bounds their number. -/
def readMembers {σ : Type} (member : σ → String → Reader σ) (start : σ) : Reader σ := fun s =>
  foldMembers member (s.length + 1) true start s

/-! ## Whole texts -/

/-- Reads a value that is followed by nothing but insignificant characters. -/
def readAll {α : Type} (read : Reader α) (s : List Char) : Except Fault α := do
  let (x, r) ← read s
  match skipSpaces r with
  | [] => .ok x
  | _ :: _ => .error .trailingCharacters

/-- Reads a text that is a natural number of at most so many bits. -/
def parseNatural (bits : Nat) (text : String) : Except Fault Nat :=
  readAll (readNatural bits) text.toList

end Metering.Json
