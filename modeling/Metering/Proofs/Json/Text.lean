import Metering.Json.Scan
import Metering.Json.Value

/-!
# Proofs: texts read back

What stands between the quotes of a text is read as the text, whatever follows the closing quote.
Each character is read on its own: escaped or not, it takes none of the characters after it.
-/

namespace Metering.Json

/-- The hexadecimal digits of a control character name it. -/
theorem unit?_hexDigit (n : Nat) (h : n < 32) :
    unit? '0' '0' (Text.hexDigit (n / 16)) (Text.hexDigit (n % 16)) = some n := by
  revert n
  decide

/-- A character is read from its code. -/
theorem readChars_ofNat {a b c d : Char} {n : Nat} (h : unit? a b c d = some n)
    (hhigh : isHigh n = false) (hlow : isLow n = false) (r : List Char) :
    readChars none ('\\' :: 'u' :: a :: b :: c :: d :: r) =
      consChar (Char.ofNat n) (readChars none r) := by
  simp [readChars, h, hhigh, hlow]

theorem readChars_control (c : Char) (r : List Char) (hc : c < ' ') :
    readChars none ('\\' :: 'u' :: '0' :: '0' :: Text.hexDigit (c.toNat / 16) ::
      Text.hexDigit (c.toNat % 16) :: r) = consChar c (readChars none r) := by
  have hlt : c.toNat < 32 := hc
  have hhigh : isHigh c.toNat = false := by simp [isHigh]; omega
  have hlow : isLow c.toNat = false := by simp [isLow]; omega
  rw [readChars_ofNat (unit?_hexDigit c.toNat hlt) hhigh hlow, Char.ofNat_toNat]

theorem readChars_plain (c : Char) (r : List Char) (hquote : c ≠ '"') (hslash : c ≠ '\\')
    (hc : ¬ c < ' ') : readChars none (c :: r) = consChar c (readChars none r) := by
  rw [readChars]
  · simp [hquote, hc]
  all_goals simp [hslash]

theorem readChars_escapedChar (c : Char) (r : List Char) :
    readChars none (escapedChar c ++ r) = consChar c (readChars none r) := by
  unfold escapedChar
  split
  case h_8 hquote hslash _ _ _ _ _ =>
    split
    · next hc => exact readChars_control c r hc
    · next hc => exact readChars_plain c r hquote hslash hc
  all_goals rfl

theorem readChars_flatMap (cs r : List Char) :
    readChars none (cs.flatMap escapedChar ++ '"' :: r) = .ok (cs, r) := by
  induction cs with
  | nil => rfl
  | cons c cs ih =>
    rw [List.flatMap_cons, List.append_assoc, readChars_escapedChar, ih]
    rfl

theorem readTextBody_escaped (s : String) (r : List Char) :
    readTextBody (s.toList.flatMap escapedChar ++ '"' :: r) = .ok (s, r) := by
  simp only [readTextBody, readChars_flatMap, ok_bind, String.ofList_toList]

theorem textLiteral_append (s : String) (r : List Char) :
    textLiteral s ++ r = '"' :: (s.toList.flatMap escapedChar ++ '"' :: r) := by
  simp [textLiteral]

end Metering.Json
