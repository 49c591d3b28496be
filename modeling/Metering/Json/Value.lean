import Metering.Json.Numeral
import Metering.Text.Quoted

/-!
# JSON values and their compact text

A JSON value and its text without insignificant characters. Inside a text, quotes, backslashes and
the characters below U+0020 are escaped and all others stand as they are, so the text of a value is
a single line.
-/

namespace Metering.Json

/-- A JSON value. The members of an object keep their order. -/
inductive Value where
  /-- The word `null`. -/
  | null
  /-- One of the words `true` and `false`. -/
  | bool (b : Bool)
  /-- A number. -/
  | number (n : Numeral)
  /-- A text. -/
  | text (s : String)
  /-- An array. -/
  | list (items : List Value)
  /-- An object. -/
  | object (members : List (String × Value))
  deriving Inhabited

/-- A character as it stands inside a JSON text. -/
def escapedChar (c : Char) : List Char :=
  match c with
  | '"' => ['\\', '"']
  | '\\' => ['\\', '\\']
  | '\n' => ['\\', 'n']
  | '\r' => ['\\', 'r']
  | '\t' => ['\\', 't']
  | '\x08' => ['\\', 'b']
  | '\x0c' => ['\\', 'f']
  | c =>
    if c < ' ' then
      ['\\', 'u', '0', '0', Text.hexDigit (c.toNat / 16), Text.hexDigit (c.toNat % 16)]
    else [c]

/-- A text between quotes. -/
def textLiteral (s : String) : List Char := '"' :: s.toList.flatMap escapedChar ++ ['"']

/-- Texts with commas between them. -/
def separated : List (List Char) → List Char
  | [] => []
  | [t] => t
  | t :: ts => t ++ ',' :: separated ts

mutual

/-- The compact text of a value. -/
def Value.render : Value → List Char
  | .null => ['n', 'u', 'l', 'l']
  | .bool true => ['t', 'r', 'u', 'e']
  | .bool false => ['f', 'a', 'l', 's', 'e']
  | .number n => n.text
  | .text s => textLiteral s
  | .list items => '[' :: separated (renderItems items) ++ [']']
  | .object members => '\x7b' :: separated (renderMembers members) ++ ['\x7d']

/-- The compact texts of the elements of an array. -/
def renderItems : List Value → List (List Char)
  | [] => []
  | v :: vs => v.render :: renderItems vs

/-- The compact texts of the members of an object. -/
def renderMembers : List (String × Value) → List (List Char)
  | [] => []
  | (k, v) :: ms => (textLiteral k ++ ':' :: v.render) :: renderMembers ms

end

end Metering.Json
