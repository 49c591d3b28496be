import Metering.Json.Numeral
import Metering.Text.Quoted

/-!
# What can be wrong with a JSON text

Reading stops at the first problem from left to right. A problem is of one of three categories: the
text ends too early, it is not JSON, or it is JSON that does not fit where it stands. Each cause has
one message.
-/

namespace Metering.Json

/-- What stands at a place where another kind of value is due. -/
inductive Found where
  /-- The word `null`. -/
  | null
  /-- One of the words `true` and `false`. -/
  | bool (b : Bool)
  /-- A number. -/
  | number (n : Number)
  /-- A text. -/
  | text (s : String)
  /-- An array. -/
  | list
  /-- An object. -/
  | object
  deriving DecidableEq

/-- The kind of value that is due at a place. -/
inductive Expected where
  /-- A text. -/
  | text
  /-- An unsigned integer of so many bits. -/
  | word (bits : Nat)
  /-- A binary64 number. -/
  | real
  /-- An array with so many elements. -/
  | words (length : Nat)
  /-- An object of texts. -/
  | texts
  /-- A meter data payload. -/
  | payload
  deriving DecidableEq

/-- A reason to refuse a text. -/
inductive Fault where
  /-- The text ends where a value is due, or inside one. -/
  | endOfValue
  /-- The text ends inside a text. -/
  | endOfText
  /-- The text ends inside an array. -/
  | endOfList
  /-- The text ends inside an object. -/
  | endOfObject
  /-- No value starts with this character. -/
  | valueDue
  /-- A word that starts like `null`, `true` or `false` goes on differently. -/
  | wordDue
  /-- A numeral lacks a digit or has one too many. -/
  | badNumeral
  /-- A number is too large for binary64. -/
  | numberRange
  /-- The key of a member is not a text. -/
  | keyDue
  /-- There is no colon after a key. -/
  | colonDue
  /-- A member is followed by neither a comma nor the end of the object. -/
  | memberEnd
  /-- An element is followed by neither a comma nor the end of the array. -/
  | elementEnd
  /-- Nothing follows a comma. -/
  | trailingComma
  /-- Something follows where the text should end. -/
  | trailingCharacters
  /-- A control character stands inside a text. -/
  | controlCharacter
  /-- A backslash is followed by no known escape. -/
  | badEscape
  /-- Half of a surrogate pair stands alone. -/
  | loneSurrogate
  /-- The second half of a surrogate pair is missing. -/
  | cutSurrogate
  /-- A value is of the wrong kind. -/
  | wrongKind (found : Found) (expected : Expected)
  /-- An integer is outside the range that is due. -/
  | wrongValue (n : Int) (expected : Expected)
  /-- An array is too short. -/
  | wrongLength (n : Nat) (expected : Expected)
  /-- A field is given twice. -/
  | duplicateField (key : String)
  deriving DecidableEq, Inhabited

/-- The three categories of faults. -/
inductive Category where
  /-- The text is not JSON. -/
  | malformed
  /-- The text ends too early. -/
  | ended
  /-- A value does not fit where it stands. -/
  | unfit
  deriving DecidableEq

/-- The words for the category of a fault. -/
def Category.name : Category → String
  | .malformed => "syntax"
  | .ended => "eof"
  | .unfit => "data"

/-- The text of an integer. -/
def integerText (n : Int) : String :=
  (if n < 0 then "-" else "") ++ String.ofList (Decimal.text n.natAbs)

/-- What was found, in words. -/
def Found.describe : Found → String
  | .null => "null"
  | .bool true => "boolean `true`"
  | .bool false => "boolean `false`"
  | .number (.integer n) => "integer `" ++ integerText n ++ "`"
  | .number (.real x) =>
    "floating point `" ++ String.ofList (Numeral.ofBinary64 x).text ++ "`"
  | .text s => "string " ++ String.ofList (Text.quoted s.toList)
  | .list => "sequence"
  | .object => "map"

/-- What is due, in words. -/
def Expected.describe : Expected → String
  | .text => "a string"
  | .word bits => "u" ++ String.ofList (Decimal.text bits)
  | .real => "f64"
  | .words n => "an array of length " ++ String.ofList (Decimal.text n)
  | .texts => "a map of string keys to string values"
  | .payload => "struct Wire"

namespace Fault

/-- The category of a fault. -/
def category : Fault → Category
  | .endOfValue | .endOfText | .endOfList | .endOfObject => .ended
  | .wrongKind .. | .wrongValue .. | .wrongLength .. | .duplicateField .. => .unfit
  | _ => .malformed

/-- The message of a fault. -/
def message : Fault → String
  | .endOfValue => "EOF while parsing a value"
  | .endOfText => "EOF while parsing a string"
  | .endOfList => "EOF while parsing a list"
  | .endOfObject => "EOF while parsing an object"
  | .valueDue => "expected value"
  | .wordDue => "expected ident"
  | .badNumeral => "invalid number"
  | .numberRange => "number out of range"
  | .keyDue => "key must be a string"
  | .colonDue => "expected `:`"
  | .memberEnd => "expected `,` or `\x7d`"
  | .elementEnd => "expected `,` or `]`"
  | .trailingComma => "trailing comma"
  | .trailingCharacters => "trailing characters"
  | .controlCharacter => "control character (\\u0000-\\u001F) found while parsing a string"
  | .badEscape => "invalid escape"
  | .loneSurrogate => "lone leading surrogate in hex escape"
  | .cutSurrogate => "unexpected end of hex escape"
  | .wrongKind found expected =>
    "invalid type: " ++ found.describe ++ ", expected " ++ expected.describe
  | .wrongValue n expected =>
    "invalid value: integer `" ++ integerText n ++ "`, expected " ++ expected.describe
  | .wrongLength n expected =>
    "invalid length " ++ String.ofList (Decimal.text n) ++ ", expected " ++ expected.describe
  | .duplicateField key => "duplicate field `" ++ key ++ "`"

end Fault
end Metering.Json
