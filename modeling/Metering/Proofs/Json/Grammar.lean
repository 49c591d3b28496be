import Metering.Proofs.Json.Reader

/-!
# Proofs: the grammar of JSON texts

Which texts spell a value. A value has many texts: there may be insignificant characters between its
parts, the characters of a text may be escaped in several ways, and a power of ten may have an upper
case letter, a plus sign and leading zeros. The relation says all this without a word about how a
text is read, except that a numeral keeps the digits that it was written with.

A text is taken to be a sequence of Unicode characters, so an escape may name a character or both
halves of a surrogate pair, but not one half alone.
-/

namespace Metering.Json

open Decimal

/-! ## Parts of a text -/

/-- Whether a text has insignificant characters only. -/
def Blank (b : List Char) : Prop := ∀ c ∈ b, isSpace c = true

instance : DecidablePred Blank := fun b =>
  decidable_of_iff (b.all isSpace = true) List.all_eq_true

/-- The characters that a letter after a backslash stands for. -/
inductive Escape : Char → Char → Prop
  /-- A quote. -/
  | quote : Escape '"' '"'
  /-- A backslash. -/
  | backslash : Escape '\\' '\\'
  /-- A slash. -/
  | slash : Escape '/' '/'
  /-- A backspace. -/
  | backspace : Escape 'b' '\x08'
  /-- A form feed. -/
  | formFeed : Escape 'f' '\x0c'
  /-- A line feed. -/
  | lineFeed : Escape 'n' '\n'
  /-- A carriage return. -/
  | carriageReturn : Escape 'r' '\r'
  /-- A tab. -/
  | tab : Escape 't' '\t'

/-- Whether a character is the hexadecimal digit of a number, in either case. -/
def HexDigit (c : Char) (n : Nat) : Prop :=
  "0123456789abcdef".toList[n]? = some c ∨ "0123456789ABCDEF".toList[n]? = some c

/-- The four hexadecimal digits of a number. -/
inductive HexDigits : List Char → Nat → Prop
  /-- The digits of a number in base sixteen. -/
  | mk {a b c d : Char} {i j k l : Nat} :
      HexDigit a i → HexDigit b j → HexDigit c k → HexDigit d l →
      HexDigits [a, b, c, d] (((i * 16 + j) * 16 + k) * 16 + l)

/-- What may stand between quotes for some characters. -/
inductive SpellsChars : List Char → List Char → Prop
  /-- Nothing. -/
  | nil : SpellsChars [] []
  /-- A character that may stand for itself. -/
  | plain {c : Char} {cs t : List Char} :
      c ≠ '"' → c ≠ '\\' → ¬ c < ' ' → SpellsChars cs t → SpellsChars (c :: cs) (c :: t)
  /-- A character with a letter of its own. -/
  | escape {e c : Char} {cs t : List Char} :
      Escape e c → SpellsChars cs t → SpellsChars (c :: cs) ('\\' :: e :: t)
  /-- A character by its code. -/
  | unit {u : List Char} {c : Char} {cs t : List Char} :
      HexDigits u c.toNat → SpellsChars cs t → SpellsChars (c :: cs) ('\\' :: 'u' :: (u ++ t))
  /-- A character by a surrogate pair. -/
  | pair {u v : List Char} {high low : Nat} {c : Char} {cs t : List Char} :
      HexDigits u (0xd800 + high) → high < 0x400 → HexDigits v (0xdc00 + low) → low < 0x400 →
      c.toNat = 0x10000 + high * 0x400 + low → SpellsChars cs t →
      SpellsChars (c :: cs) ('\\' :: 'u' :: (u ++ '\\' :: 'u' :: (v ++ t)))

/-- Most characters may stand for themselves. -/
theorem SpellsChars.of_plain {cs : List Char}
    (h : cs.all (fun c => decide (c ≠ '"' ∧ c ≠ '\\' ∧ ¬ c < ' ')) = true) :
    SpellsChars cs cs := by
  induction cs with
  | nil => exact .nil
  | cons c cs ih =>
    rw [List.all_cons, Bool.and_eq_true, decide_eq_true_iff] at h
    obtain ⟨⟨hquote, hslash, hc⟩, hcs⟩ := h
    exact .plain hquote hslash hc (ih hcs)

/-- The texts of a power of ten. -/
inductive SpellsExponent : Option Int → List Char → Prop
  /-- No power of ten. -/
  | none : SpellsExponent none []
  /-- A power of ten without a sign. -/
  | unsigned {e : Char} {ds : List Digit} :
      e = 'e' ∨ e = 'E' → ds ≠ [] → SpellsExponent (some (ofDigits ds)) (e :: digitsText ds)
  /-- A power of ten with a plus sign. -/
  | plus {e : Char} {ds : List Digit} :
      e = 'e' ∨ e = 'E' → ds ≠ [] →
      SpellsExponent (some (ofDigits ds)) (e :: '+' :: digitsText ds)
  /-- A negative power of ten. -/
  | minus {e : Char} {ds : List Digit} :
      e = 'e' ∨ e = 'E' → ds ≠ [] →
      SpellsExponent (some (-(ofDigits ds : Int))) (e :: '-' :: digitsText ds)

/-- The texts of a numeral. The whole part has no leading zero. -/
inductive SpellsNumeral : Numeral → List Char → Prop
  /-- A sign, a whole part, a fraction and a power of ten. -/
  | mk {negative : Bool} {whole : Nat} {fraction : List Digit} {exponent : Option Int}
      {e : List Char} :
      SpellsExponent exponent e →
      SpellsNumeral ⟨negative, whole, fraction, exponent⟩
        ((if negative then ['-'] else []) ++
          (Decimal.text whole ++ (Numeral.fractionText fraction ++ e)))

/-! ## Values -/

/-- The parts of a text that the grammar tells apart. -/
inductive Part where
  /-- A value. -/
  | value (v : Value)
  /-- The elements of an array. -/
  | items (vs : List Value)
  /-- What follows an element: more elements after a comma, or nothing. -/
  | afterItem (vs : List Value)
  /-- The members of an object. -/
  | members (ms : List (String × Value))
  /-- What follows a member: more members after a comma, or nothing. -/
  | afterMember (ms : List (String × Value))

/-- The texts of a part. -/
inductive Spells : Part → List Char → Prop
  /-- The word for nothing. -/
  | nullWord : Spells (.value .null) ['n', 'u', 'l', 'l']
  /-- The word for true. -/
  | trueWord : Spells (.value (.bool true)) ['t', 'r', 'u', 'e']
  /-- The word for false. -/
  | falseWord : Spells (.value (.bool false)) ['f', 'a', 'l', 's', 'e']
  /-- A number. -/
  | number {n : Numeral} {t : List Char} :
      SpellsNumeral n t → Spells (.value (.number n)) t
  /-- A text between quotes. -/
  | text {s : String} {t : List Char} :
      SpellsChars s.toList t → Spells (.value (.text s)) ('"' :: (t ++ ['"']))
  /-- An array without elements. -/
  | emptyList {b : List Char} : Blank b → Spells (.value (.list [])) ('[' :: (b ++ [']']))
  /-- An array with elements. -/
  | list {vs : List Value} {t : List Char} :
      Spells (.items vs) t → Spells (.value (.list vs)) ('[' :: (t ++ [']']))
  /-- An object without members. -/
  | emptyObject {b : List Char} :
      Blank b → Spells (.value (.object [])) ('\x7b' :: (b ++ ['\x7d']))
  /-- An object with members. -/
  | object {ms : List (String × Value)} {t : List Char} :
      Spells (.members ms) t → Spells (.value (.object ms)) ('\x7b' :: (t ++ ['\x7d']))
  /-- An element and what follows it. -/
  | item {v : Value} {vs : List Value} {b t r : List Char} :
      Blank b → Spells (.value v) t → Spells (.afterItem vs) r →
      Spells (.items (v :: vs)) (b ++ (t ++ r))
  /-- Nothing follows an element. -/
  | lastItem {b : List Char} : Blank b → Spells (.afterItem []) b
  /-- More elements follow after a comma. -/
  | nextItem {vs : List Value} {b t : List Char} :
      Blank b → Spells (.items vs) t → Spells (.afterItem vs) (b ++ ',' :: t)
  /-- A key, a colon, a value, and what follows them. -/
  | member {k : String} {v : Value} {ms : List (String × Value)} {b kt b' b'' t r : List Char} :
      Blank b → SpellsChars k.toList kt → Blank b' → Blank b'' → Spells (.value v) t →
      Spells (.afterMember ms) r →
      Spells (.members ((k, v) :: ms)) (b ++ '"' :: (kt ++ '"' :: (b' ++ ':' :: (b'' ++ (t ++ r)))))
  /-- Nothing follows a member. -/
  | lastMember {b : List Char} : Blank b → Spells (.afterMember []) b
  /-- More members follow after a comma. -/
  | nextMember {ms : List (String × Value)} {b t : List Char} :
      Blank b → Spells (.members ms) t → Spells (.afterMember ms) (b ++ ',' :: t)

/-- The texts of an object, with insignificant characters around it. -/
def SpellsObject (ms : List (String × Value)) (text : List Char) : Prop :=
  ∃ b t b', Blank b ∧ Spells (.value (.object ms)) t ∧ Blank b' ∧ text = b ++ (t ++ b')

/-! ## The front of a text -/

theorem blank_nil : Blank [] := fun _ hc => absurd hc List.not_mem_nil

theorem skipSpaces_blank {b : List Char} (hb : Blank b) (r : List Char) :
    skipSpaces (b ++ r) = skipSpaces r := by
  rw [skipSpaces, List.dropWhile_append_of_pos hb, skipSpaces]

theorem skipSpaces_blank_cons {b : List Char} {c : Char} (hb : Blank b) (hc : isSpace c = false)
    (r : List Char) : skipSpaces (b ++ c :: r) = c :: r := by
  rw [skipSpaces_blank hb, skipSpaces_cons r hc]

theorem skipSpaces_of_blank {b : List Char} (hb : Blank b) : skipSpaces b = [] := by
  have h := skipSpaces_blank hb []
  rwa [List.append_nil] at h

/-- The characters that the texts of a value start with. -/
def Value.Opens : Value → Char → Prop
  | .null, c => c = 'n'
  | .bool true, c => c = 't'
  | .bool false, c => c = 'f'
  | .number _, c => startsNumeral c = true
  | .text _, c => c = '"'
  | .list _, c => c = '['
  | .object _, c => c = '\x7b'

theorem SpellsNumeral.eq_cons {n : Numeral} {t : List Char} (h : SpellsNumeral n t) :
    ∃ c t', t = c :: t' ∧ startsNumeral c = true ∧ isSpace c = false := by
  obtain @⟨negative, whole, fraction, exponent, e, he⟩ := h
  cases negative with
  | true => exact ⟨'-', _, rfl, by decide, by decide⟩
  | false =>
    obtain ⟨d, r, hd⟩ := Decimal.text_eq_cons whole
    obtain ⟨hstarts, hspace, -⟩ := startsNumeral_char d
    refine ⟨d.char, r ++ (Numeral.fractionText fraction ++ e), ?_, hstarts, hspace⟩
    simp [hd]

theorem startsNumeral_ne {c d : Char} (hc : startsNumeral c = true)
    (hd : startsNumeral d = false) : c ≠ d := by
  rintro rfl
  rw [hc] at hd
  cases hd

theorem SpellsNumeral.starts {n : Numeral} {c : Char} {t : List Char}
    (h : SpellsNumeral n (c :: t)) : startsNumeral c = true := by
  obtain ⟨d, t', heq, hd, -⟩ := h.eq_cons
  rw [(List.cons.inj heq).1]
  exact hd

theorem Value.Opens.ne_bracket {v : Value} {c : Char} (h : v.Opens c) : c ≠ ']' := by
  cases v with
  | bool b =>
    cases b <;> (obtain rfl := h; decide)
  | number n => exact startsNumeral_ne h (by decide)
  | _ =>
    obtain rfl := h
    decide

theorem Spells.eq_cons {v : Value} {t : List Char} (h : Spells (.value v) t) :
    ∃ c t', t = c :: t' ∧ v.Opens c ∧ isSpace c = false := by
  cases h with
  | number hn => exact hn.eq_cons
  | _ => exact ⟨_, _, rfl, rfl, by decide⟩

/-! ## What follows a value -/

theorem endsNumeral_blank {b r : List Char} (hb : Blank b) (hr : EndsNumeral r) :
    EndsNumeral (b ++ r) := by
  cases b with
  | nil => exact hr
  | cons c b =>
    intro d hd
    obtain rfl : c = d := by simpa using hd
    have hc : isSpace c = true := hb c List.mem_cons_self
    simp only [isSpace, Bool.or_eq_true, beq_iff_eq] at hc
    rcases hc with ((rfl | rfl) | rfl) | rfl <;> decide

theorem Spells.endsNumeral_afterItem {vs : List Value} {t : List Char}
    (h : Spells (.afterItem vs) t) (r : List Char) : EndsNumeral (t ++ ']' :: r) := by
  cases h with
  | lastItem hb => exact endsNumeral_blank hb (delimited_bracket r).endsNumeral
  | nextItem hb _ =>
    rw [List.append_assoc]
    exact endsNumeral_blank hb (delimited_comma _).endsNumeral

theorem Spells.endsNumeral_afterMember {ms : List (String × Value)} {t : List Char}
    (h : Spells (.afterMember ms) t) (r : List Char) : EndsNumeral (t ++ '\x7d' :: r) := by
  cases h with
  | lastMember hb => exact endsNumeral_blank hb (delimited_brace r).endsNumeral
  | nextMember hb _ =>
    rw [List.append_assoc]
    exact endsNumeral_blank hb (delimited_comma _).endsNumeral

/-! ## Reading texts -/

theorem HexDigit.lt {c : Char} {n : Nat} (h : HexDigit c n) : n < 16 := by
  rcases h with h | h
  · exact (List.getElem?_eq_some_iff.mp h).1
  · exact (List.getElem?_eq_some_iff.mp h).1

theorem HexDigit.hexValue? {c : Char} {n : Nat} (h : HexDigit c n) : hexValue? c = some n := by
  have hall : ∀ n < 16, ("0123456789abcdef".toList[n]?.toList ++
      "0123456789ABCDEF".toList[n]?.toList).all (Json.hexValue? · == some n) = true := by decide
  have hvalue := List.all_eq_true.mp (hall n h.lt) c
  rw [List.mem_append, Option.mem_toList, Option.mem_toList, beq_iff_eq] at hvalue
  exact hvalue h

theorem HexDigits.unit? {u : List Char} {n : Nat} (h : HexDigits u n) :
    ∃ a b c d, u = [a, b, c, d] ∧ unit? a b c d = some n := by
  obtain ⟨ha, hb, hc, hd⟩ := h
  refine ⟨_, _, _, _, rfl, ?_⟩
  simp only [Json.unit?, ha.hexValue?, hb.hexValue?, hc.hexValue?, hd.hexValue?]
  rfl

/-- No character is half of a surrogate pair. -/
theorem isHigh_toNat (c : Char) : isHigh c.toNat = false ∧ isLow c.toNat = false := by
  have hvalid := c.valid
  simp only [UInt32.isValidChar, Nat.isValidChar] at hvalid
  have hnat : c.toNat = c.val.toNat := rfl
  simp only [isHigh, isLow, Bool.and_eq_false_iff, decide_eq_false_iff_not]
  omega

theorem readChars_escape {e c : Char} (h : Escape e c) (r : List Char) :
    readChars none ('\\' :: e :: r) = consChar c (readChars none r) := by
  cases h <;> rfl

theorem readChars_unit {u : List Char} {c : Char} (h : HexDigits u c.toNat) (r : List Char) :
    readChars none ('\\' :: 'u' :: (u ++ r)) = consChar c (readChars none r) := by
  obtain ⟨a, b, d, e, rfl, hunit⟩ := h.unit?
  obtain ⟨hhigh, hlow⟩ := isHigh_toNat c
  have hread := readChars_ofNat hunit hhigh hlow r
  rw [Char.ofNat_toNat] at hread
  exact hread

theorem readChars_pair {u v : List Char} {high low : Nat} {c : Char}
    (hu : HexDigits u (0xd800 + high)) (hhigh : high < 0x400) (hv : HexDigits v (0xdc00 + low))
    (hlow : low < 0x400) (hc : c.toNat = 0x10000 + high * 0x400 + low) (r : List Char) :
    readChars none ('\\' :: 'u' :: (u ++ '\\' :: 'u' :: (v ++ r))) =
      consChar c (readChars none r) := by
  obtain ⟨a, b, d, e, rfl, hunit⟩ := hu.unit?
  obtain ⟨a', b', d', e', rfl, hunit'⟩ := hv.unit?
  have hisLow : isLow (0xd800 + high) = false := by
    simp only [isLow, Bool.and_eq_false_iff, decide_eq_false_iff_not]
    omega
  have hisHigh : isHigh (0xd800 + high) = true := by
    simp only [isHigh, Bool.and_eq_true, decide_eq_true_eq]
    omega
  have hisLow' : isLow (0xdc00 + low) = true := by
    simp only [isLow, Bool.and_eq_true, decide_eq_true_eq]
    omega
  have hpair : pairChar (0xd800 + high) (0xdc00 + low) = c := by
    have hnat : (0xd800 + high - 0xd800) * 0x400 + (0xdc00 + low - 0xdc00) + 0x10000 =
        c.toNat := by omega
    rw [pairChar, hnat, Char.ofNat_toNat]
  simp [readChars, hunit, hunit', hisLow, hisHigh, hisLow', hpair]

/-- What stands between quotes is read as the characters that it spells. -/
theorem SpellsChars.readChars {cs t : List Char} (h : SpellsChars cs t) (r : List Char) :
    readChars none (t ++ '"' :: r) = .ok (cs, r) := by
  induction h with
  | nil => rfl
  | plain hquote hslash hc _ ih =>
    rw [List.cons_append, readChars_plain _ _ hquote hslash hc, ih]
    rfl
  | escape he _ ih =>
    rw [List.cons_append, List.cons_append, readChars_escape he, ih]
    rfl
  | unit hu _ ih =>
    rw [List.cons_append, List.cons_append, List.append_assoc, readChars_unit hu, ih]
    rfl
  | pair hu hhigh hv hlow hc _ ih =>
    simp only [List.cons_append, List.append_assoc]
    rw [readChars_pair hu hhigh hv hlow hc, ih]
    rfl

theorem SpellsChars.readTextBody {s : String} {t : List Char} (h : SpellsChars s.toList t)
    (r : List Char) : readTextBody (t ++ '"' :: r) = .ok (s, r) := by
  simp only [Json.readTextBody, h.readChars, ok_bind, String.ofList_toList]

/-- What stands between quotes is skipped. -/
theorem SpellsChars.skipChars {cs t : List Char} (h : SpellsChars cs t) (r : List Char) :
    skipChars (t ++ '"' :: r) = .ok r := by
  induction h with
  | nil => simp [Json.skipChars]
  | @plain c _ _ hquote hslash hc _ ih =>
    rw [List.cons_append, Json.skipChars]
    · simp [hquote, hc, ih]
    all_goals simp [hslash]
  | escape he _ ih =>
    rw [List.cons_append, List.cons_append]
    cases he <;> simp [Json.skipChars, Json.escaped?, ih]
  | unit hu _ ih =>
    obtain ⟨a, b, d, e, rfl, hunit⟩ := hu.unit?
    simp [Json.skipChars, hunit, ih]
  | pair hu _ hv _ _ _ ih =>
    obtain ⟨a, b, d, e, rfl, hunit⟩ := hu.unit?
    obtain ⟨a', b', d', e', rfl, hunit'⟩ := hv.unit?
    simp [Json.skipChars, hunit, hunit', ih]

/-! ## Reading numerals -/

theorem readPower_digitsText (cut : Fault) (negative : Bool) (ds : List Digit) (hds : ds ≠ [])
    {r : List Char} (hr : EndsNumeral r) :
    readPower cut negative (digitsText ds ++ r) =
      .ok (some (if negative then -(ofDigits ds : Int) else ofDigits ds), r) := by
  simp only [readPower, readDigits_digitsText cut ds r hds hr.stopsDigits, ok_bind]

theorem Digit.char_ne_sign (d : Digit) : d.char ≠ '+' ∧ d.char ≠ '-' := by
  revert d
  decide

theorem SpellsExponent.readExponent {x : Option Int} {t : List Char} (h : SpellsExponent x t)
    (cut : Fault) {r : List Char} (hr : EndsNumeral r) :
    readExponent cut (t ++ r) = .ok (x, r) := by
  cases h with
  | none => exact readExponent_exponentText cut Option.none r hr
  | @unsigned e ds he hds =>
    cases ds with
    | nil => exact absurd rfl hds
    | cons d ds =>
      obtain ⟨hplus, hminus⟩ := Digit.char_ne_sign d
      have hpower := readPower_digitsText cut false (d :: ds) hds hr
      simp only [digitsText, List.map_cons, List.cons_append] at hpower ⊢
      simp [Json.readExponent, he, hplus, hminus, hpower]
  | plus he hds =>
    simp [Json.readExponent, he, readPower_digitsText cut false _ hds hr]
  | minus he hds =>
    simp [Json.readExponent, he, readPower_digitsText cut true _ hds hr]

theorem SpellsExponent.stopsDigits {x : Option Int} {t : List Char} (h : SpellsExponent x t)
    {r : List Char} (hr : EndsNumeral r) :
    StopsDigits (t ++ r) ∧ ∀ c ∈ (t ++ r).head?, c ≠ '.' := by
  have hletter {e : Char} (he : e = 'e' ∨ e = 'E') (u : List Char) :
      StopsDigits (e :: u) ∧ ∀ c ∈ (e :: u).head?, c ≠ '.' := by
    constructor
    · intro c hc
      obtain rfl : e = c := by simpa using hc
      rcases he with rfl | rfl <;> rfl
    · intro c hc
      obtain rfl : e = c := by simpa using hc
      rcases he with rfl | rfl <;> decide
  cases h with
  | none => exact ⟨hr.stopsDigits, fun c hc => (hr c hc).2.1⟩
  | unsigned he _ => exact hletter he _
  | plus he _ => exact hletter he _
  | minus he _ => exact hletter he _

/-- A numeral is read from each of its texts. -/
theorem SpellsNumeral.readNumeral {n : Numeral} {t : List Char} (h : SpellsNumeral n t)
    (cut : Fault) {r : List Char} (hr : EndsNumeral r) :
    readNumeral cut (t ++ r) = .ok (n, r) := by
  obtain @⟨negative, whole, fraction, exponent, e, he⟩ := h
  obtain ⟨hstops, hdot⟩ := he.stopsDigits hr
  have hwhole := readWhole_text cut whole (Numeral.fractionText fraction ++ (e ++ r))
    (stopsDigits_fractionText _ _ hstops)
  have hfraction := readFraction_fractionText cut fraction _ hstops hdot
  simp only [Json.readNumeral, List.append_assoc, readSign_text, hwhole, hfraction,
    he.readExponent cut hr, ok_bind]

end Metering.Json
