import Metering.Json.Fault

/-!
# The atoms of a JSON text

Words, numerals and texts, read off the front of a list of characters. Each function returns what
it read and the rest of the text, or the first fault.

A text is read in one pass. An escape may name one half of a surrogate pair; the first half is then
carried along until the second one is read, and nothing else may come in between. Where a value is
only skipped, the halves are not checked.
-/

namespace Metering.Json

open Decimal

/-- A reader takes a value off the front of a text. -/
abbrev Reader (α : Type) := List Char → Except Fault (α × List Char)

@[simp] theorem ok_bind {α β : Type} (x : α) (f : α → Except Fault β) :
    (Except.ok x >>= f) = f x := rfl

/-- Whether a character is insignificant between the parts of a JSON text. -/
def isSpace (c : Char) : Bool := c == ' ' || c == '\n' || c == '\t' || c == '\r'

/-- A text without the insignificant characters at its front. -/
def skipSpaces (s : List Char) : List Char := s.dropWhile isSpace

/-- Drops the letters of a word, which have to be the next ones. -/
def dropWord : List Char → List Char → Except Fault (List Char)
  | [], s => .ok s
  | _ :: _, [] => .error .endOfValue
  | w :: ws, c :: s => if w = c then dropWord ws s else .error .wordDue

/-! ## Numerals -/

/-- Reads digits, of which there must be at least one. `cut` is the fault of a text that ends here
instead. -/
def readDigits (cut : Fault) : Reader (List Digit) := fun s =>
  match spanDigits s with
  | ([], []) => .error cut
  | ([], _ :: _) => .error .badNumeral
  | (ds, r) => .ok (ds, r)

/-- Reads the whole part of a numeral, which has no leading zero. -/
def readWhole (cut : Fault) : Reader Nat := fun s => do
  match ← readDigits cut s with
  | (0 :: _ :: _, _) => .error .badNumeral
  | (ds, r) => .ok (ofDigits ds, r)

/-- Reads the fraction of a numeral, if there is one. -/
def readFraction (cut : Fault) : Reader (List Digit)
  | '.' :: s => readDigits cut s
  | s => .ok ([], s)

/-- Reads the digits of a power of ten with the given sign. -/
def readPower (cut : Fault) (negative : Bool) : Reader (Option Int) := fun s => do
  let (ds, r) ← readDigits cut s
  let n : Int := ofDigits ds
  .ok (some (if negative then -n else n), r)

/-- Reads the power of ten of a numeral, if there is one. -/
def readExponent (cut : Fault) : Reader (Option Int)
  | [] => .ok (none, [])
  | c :: s =>
    if c = 'e' ∨ c = 'E' then
      match s with
      | '+' :: s => readPower cut false s
      | '-' :: s => readPower cut true s
      | s => readPower cut false s
    else .ok (none, c :: s)

/-- Takes a minus sign off the front of a text, if there is one. -/
def readSign : List Char → Bool × List Char
  | '-' :: s => (true, s)
  | s => (false, s)

/-- Reads a numeral. `cut` is the fault of a text that ends where a digit is due. -/
def readNumeral (cut : Fault) : Reader Numeral := fun s => do
  let (negative, s) := readSign s
  let (whole, s) ← readWhole cut s
  let (fraction, s) ← readFraction cut s
  let (exponent, s) ← readExponent cut s
  .ok (⟨negative, whole, fraction, exponent⟩, s)

/-- Reads a numeral and its value, which has to be in range. -/
def readNumber : Reader Number := fun s => do
  let (n, r) ← readNumeral .endOfValue s
  match n.number? with
  | some x => .ok (x, r)
  | none => .error .numberRange

/-- Whether a numeral starts with this character. -/
def startsNumeral (c : Char) : Bool := c == '-' || (Digit.ofChar? c).isSome

/-! ## Texts -/

/-- The value of a hexadecimal digit of either case. -/
def hexValue? (c : Char) : Option Nat :=
  let n := c.toNat
  if 48 ≤ n ∧ n < 58 then some (n - 48)
  else if 65 ≤ n ∧ n < 71 then some (n - 55)
  else if 97 ≤ n ∧ n < 103 then some (n - 87)
  else none

/-- The 16-bit unit that four hexadecimal digits name. -/
def unit? (a b c d : Char) : Option Nat := do
  let a ← hexValue? a
  let b ← hexValue? b
  let c ← hexValue? c
  let d ← hexValue? d
  some (((a * 16 + b) * 16 + c) * 16 + d)

/-- Whether a unit is the first half of a surrogate pair. -/
def isHigh (n : Nat) : Bool := 0xd800 ≤ n && n < 0xdc00

/-- Whether a unit is the second half of a surrogate pair. -/
def isLow (n : Nat) : Bool := 0xdc00 ≤ n && n < 0xe000

/-- The character that a surrogate pair stands for. -/
def pairChar (high low : Nat) : Char :=
  Char.ofNat ((high - 0xd800) * 0x400 + (low - 0xdc00) + 0x10000)

/-- The character that a letter after a backslash stands for. -/
def escaped? (c : Char) : Option Char :=
  match c with
  | '"' => some '"'
  | '\\' => some '\\'
  | '/' => some '/'
  | 'b' => some '\x08'
  | 'f' => some '\x0c'
  | 'n' => some '\n'
  | 'r' => some '\r'
  | 't' => some '\t'
  | _ => none

/-- The fault of an escape by number that is not followed by four characters. Four bytes are enough
to see that it is no such escape; with fewer the text has ended. -/
def shortEscape (s : List Char) : Fault :=
  if 4 ≤ (String.ofList s).utf8ByteSize then .badEscape else .endOfText

/-- Puts a character in front of what a reader returned. -/
def consChar (c : Char) (e : Except Fault (List Char × List Char)) :
    Except Fault (List Char × List Char) :=
  e.map fun (cs, r) => (c :: cs, r)

/-- Reads a text up to its closing quote. `high` is the first half of a surrogate pair, if one has
just been read. -/
def readChars (high : Option Nat) (s : List Char) : Except Fault (List Char × List Char) :=
  match s with
  | [] => .error .endOfText
  | '\\' :: 'u' :: a :: b :: c :: d :: r =>
    match unit? a b c d, high with
    | none, _ => .error .badEscape
    | some n, some h =>
      if isLow n then consChar (pairChar h n) (readChars none r) else .error .loneSurrogate
    | some n, none =>
      if isLow n then .error .loneSurrogate
      else if isHigh n then readChars (some n) r
      else consChar (Char.ofNat n) (readChars none r)
  | '\\' :: 'u' :: r => .error (shortEscape r)
  | ['\\'] => .error .endOfText
  | '\\' :: c :: r =>
    match high, escaped? c with
    | some _, _ => .error .cutSurrogate
    | none, some x => consChar x (readChars none r)
    | none, none => .error .badEscape
  | c :: r =>
    match high with
    | some _ => .error .cutSurrogate
    | none =>
      if c = '"' then .ok ([], r)
      else if c < ' ' then .error .controlCharacter
      else consChar c (readChars none r)

/-- Reads a text whose opening quote has been read. -/
def readTextBody : Reader String := fun s => do
  let (cs, r) ← readChars none s
  .ok (String.ofList cs, r)

/-- Skips a text up to its closing quote. -/
def skipChars (s : List Char) : Except Fault (List Char) :=
  match s with
  | [] => .error .endOfText
  | '\\' :: 'u' :: a :: b :: c :: d :: r =>
    if (unit? a b c d).isSome then skipChars r else .error .badEscape
  | '\\' :: 'u' :: r => .error (shortEscape r)
  | ['\\'] => .error .endOfText
  | '\\' :: c :: r => if (escaped? c).isSome then skipChars r else .error .badEscape
  | c :: r =>
    if c = '"' then .ok r
    else if c < ' ' then .error .controlCharacter
    else skipChars r

end Metering.Json
