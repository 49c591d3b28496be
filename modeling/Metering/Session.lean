import Metering.Config.Property
import Metering.Positions
import Metering.Text.Quoted

/-!
# Sessions

A session holds what its meters share: an identity, a configuration and the positions it has given
out. The identity is a random UUID of version 4: 122 random bits in 32 hexadecimal digits.
-/

namespace Metering

/-- The hexadecimal digits of the low `4 * n` bits of a number. -/
def hexDigits : (n : Nat) → Nat → List Char
  | 0, _ => []
  | n + 1, bits => hexDigits n (bits / 16) ++ [Text.hexDigit (bits % 16)]

/-- The text of a UUID of version 4 with the given random bits; the six bits that tell the version
and the variant are overwritten. -/
def uuidText (high low : UInt64) : String :=
  let h := high.toNat
  let l := low.toNat
  String.ofList (
    hexDigits 8 (h / 2 ^ 32) ++ '-' :: hexDigits 4 (h / 2 ^ 16) ++ '-' ::
    '4' :: hexDigits 3 h ++ '-' ::
    Text.hexDigit (8 + l / 2 ^ 60 % 4) :: hexDigits 3 (l / 2 ^ 48) ++ '-' :: hexDigits 12 l)

/-- What the meters of a session share. -/
structure Session where
  /-- The identity of the session. -/
  id : String
  /-- The configuration. -/
  config : Config := {}
  /-- The positions given out so far. -/
  positions : Positions := {}
  deriving DecidableEq, Inhabited

end Metering
