import Metering.Proofs.Json.Grammar

/-!
# Proofs: compact texts

The compact text of a value is one of its texts by the grammar. It is a single line whatever the
value holds: inside a text every character below the space is escaped, and nothing else in it brings
one in.
-/

namespace Metering.Json

open Decimal

/-! ## Compact texts by the grammar -/

theorem hexDigit_hexDigit (n : Nat) (h : n < 16) : HexDigit (Text.hexDigit n) n := by
  unfold HexDigit
  revert n
  decide

/-- A character below the space is escaped by its number. -/
theorem hexDigits_control {c : Char} (hc : c < ' ') :
    HexDigits ['0', '0', Text.hexDigit (c.toNat / 16), Text.hexDigit (c.toNat % 16)] c.toNat := by
  have hlt : c.toNat < 32 := hc
  have hzero : HexDigit '0' 0 := .inl rfl
  have hunit := HexDigits.mk hzero hzero (hexDigit_hexDigit (c.toNat / 16) (by omega))
    (hexDigit_hexDigit (c.toNat % 16) (by omega))
  have hvalue : ((0 * 16 + 0) * 16 + c.toNat / 16) * 16 + c.toNat % 16 = c.toNat := by omega
  rwa [hvalue] at hunit

theorem spellsChars_escapedChar (c : Char) {cs t : List Char} (h : SpellsChars cs t) :
    SpellsChars (c :: cs) (escapedChar c ++ t) := by
  unfold escapedChar
  split
  case h_1 => exact .escape .quote h
  case h_2 => exact .escape .backslash h
  case h_3 => exact .escape .lineFeed h
  case h_4 => exact .escape .carriageReturn h
  case h_5 => exact .escape .tab h
  case h_6 => exact .escape .backspace h
  case h_7 => exact .escape .formFeed h
  case h_8 hquote hslash _ _ _ _ _ =>
    split
    · next hc => exact .unit (hexDigits_control hc) h
    · next hc => exact .plain hquote hslash hc h

theorem spellsChars_flatMap (cs : List Char) : SpellsChars cs (cs.flatMap escapedChar) := by
  induction cs with
  | nil => exact .nil
  | cons c cs ih => exact spellsChars_escapedChar c ih

theorem spellsExponent_exponentText (e : Option Int) :
    SpellsExponent e (Numeral.exponentText e) := by
  cases e with
  | none => exact .none
  | some e =>
    have hne := digits_ne_nil e.natAbs
    have hvalue := ofDigits_digits e.natAbs
    by_cases he : e < 0
    · have hspells := SpellsExponent.minus (.inl rfl) hne
      have hneg : -(e.natAbs : Int) = e := by omega
      rw [hvalue, hneg] at hspells
      simpa only [Numeral.exponentText, Decimal.text, if_pos he] using hspells
    · have hspells := SpellsExponent.plus (.inl rfl) hne
      have hpos : (e.natAbs : Int) = e := by omega
      rw [hvalue, hpos] at hspells
      simpa only [Numeral.exponentText, Decimal.text, if_neg he] using hspells

theorem Numeral.spellsNumeral_text (n : Numeral) : SpellsNumeral n n.text :=
  .mk (spellsExponent_exponentText n.exponent)

mutual

/-- The compact text of a value is one of its texts. -/
theorem spells_render : (v : Value) → Spells (.value v) v.render
  | .null => .nullWord
  | .bool true => .trueWord
  | .bool false => .falseWord
  | .number n => .number n.spellsNumeral_text
  | .text s => .text (spellsChars_flatMap s.toList)
  | .list [] => .emptyList blank_nil
  | .list (v :: vs) => by
    have hitem := Spells.item blank_nil (spells_render v) (spells_renderItems vs)
    rw [Value.render, renderItems, separated_cons]
    exact .list hitem
  | .object [] => .emptyObject blank_nil
  | .object ((k, v) :: ms) => by
    have hmember := Spells.member blank_nil (spellsChars_flatMap k.toList) blank_nil blank_nil
      (spells_render v) (spells_renderMembers ms)
    rw [Value.render, renderMembers, separated_cons]
    simpa [textLiteral] using Spells.object hmember

/-- The further elements of an array, each after its comma. -/
theorem spells_renderItems : (vs : List Value) →
    Spells (.afterItem vs) ((renderItems vs).flatMap (',' :: ·))
  | [] => .lastItem blank_nil
  | v :: vs =>
    .nextItem blank_nil (.item blank_nil (spells_render v) (spells_renderItems vs))

/-- The further members of an object, each after its comma. -/
theorem spells_renderMembers : (ms : List (String × Value)) →
    Spells (.afterMember ms) ((renderMembers ms).flatMap (',' :: ·))
  | [] => .lastMember blank_nil
  | (k, v) :: ms => by
    have hmember := Spells.member blank_nil (spellsChars_flatMap k.toList) blank_nil blank_nil
      (spells_render v) (spells_renderMembers ms)
    simpa [renderMembers, textLiteral] using Spells.nextMember blank_nil hmember

end

/-! ## Single lines -/

/-- Whether a text has no character below the space, and so no line break. -/
def SingleLine (t : List Char) : Prop := ∀ c ∈ t, ' ' ≤ c

instance : DecidablePred SingleLine := fun t =>
  decidable_of_iff (t.all (' ' ≤ ·) = true) (by simp [SingleLine])

@[simp] theorem singleLine_nil : SingleLine [] := fun _ hc => absurd hc List.not_mem_nil

@[simp] theorem singleLine_cons {c : Char} {t : List Char} :
    SingleLine (c :: t) ↔ ' ' ≤ c ∧ SingleLine t := List.forall_mem_cons

@[simp] theorem singleLine_append {s t : List Char} :
    SingleLine (s ++ t) ↔ SingleLine s ∧ SingleLine t := List.forall_mem_append

theorem singleLine_digitsText (ds : List Digit) : SingleLine (digitsText ds) := by
  have hchar : ∀ d : Digit, ' ' ≤ d.char := by decide
  intro c hc
  obtain ⟨d, -, rfl⟩ := List.mem_map.mp hc
  exact hchar d

theorem Numeral.singleLine_text (n : Numeral) : SingleLine n.text := by
  have hsign : SingleLine (if n.negative then ['-'] else []) := by
    cases n.negative <;> decide
  have hfraction : SingleLine (Numeral.fractionText n.fraction) := by
    unfold Numeral.fractionText
    split
    · exact singleLine_nil
    · exact singleLine_cons.mpr ⟨by decide, singleLine_digitsText _⟩
  have hexponent : SingleLine (Numeral.exponentText n.exponent) := by
    cases n.exponent with
    | none => exact singleLine_nil
    | some e =>
      have hsign : ' ' ≤ (if e < 0 then '-' else '+') := by split <;> decide
      exact singleLine_cons.mpr
        ⟨by decide, singleLine_cons.mpr ⟨hsign, singleLine_digitsText _⟩⟩
  exact singleLine_append.mpr ⟨hsign, singleLine_append.mpr
    ⟨singleLine_digitsText _, singleLine_append.mpr ⟨hfraction, hexponent⟩⟩⟩

theorem le_hexDigit (n : Nat) (h : n < 16) : ' ' ≤ Text.hexDigit n := by
  revert n
  decide

/-- Whatever a character is, it is written without a character below the space. -/
theorem singleLine_escapedChar (c : Char) : SingleLine (escapedChar c) := by
  unfold escapedChar
  split
  case h_8 =>
    split
    · next hc =>
      have hlt : c.toNat < 32 := hc
      have hhigh := le_hexDigit (c.toNat / 16) (by omega)
      have hlow := le_hexDigit (c.toNat % 16) (by omega)
      have hzero : SingleLine ['\\', 'u', '0', '0'] := by decide
      exact singleLine_append.mpr ⟨hzero, by simp [hhigh, hlow]⟩
    · next hc => exact singleLine_cons.mpr ⟨Char.not_lt.mp hc, singleLine_nil⟩
  all_goals decide

theorem singleLine_textLiteral (s : String) : SingleLine (textLiteral s) := by
  have hbody : SingleLine (s.toList.flatMap escapedChar) := by
    intro c hc
    obtain ⟨d, -, hc⟩ := List.mem_flatMap.mp hc
    exact singleLine_escapedChar d c hc
  have hquote : ' ' ≤ '"' := by decide
  simp [textLiteral, hbody, hquote]

theorem singleLine_separated {ts : List (List Char)} (h : ∀ t ∈ ts, SingleLine t) :
    SingleLine (separated ts) := by
  have hcomma : ' ' ≤ ',' := by decide
  induction ts with
  | nil => exact singleLine_nil
  | cons t ts ih =>
    obtain ⟨ht, hts⟩ := List.forall_mem_cons.mp h
    cases ts with
    | nil => exact ht
    | cons t' ts => exact singleLine_append.mpr ⟨ht, singleLine_cons.mpr ⟨hcomma, ih hts⟩⟩

mutual

/-- The compact text of a value is a single line, whatever its texts hold. -/
theorem singleLine_render : (v : Value) → SingleLine v.render
  | .null => by decide
  | .bool true => by decide
  | .bool false => by decide
  | .number n => n.singleLine_text
  | .text s => singleLine_textLiteral s
  | .list vs =>
    singleLine_cons.mpr ⟨by decide, singleLine_append.mpr
      ⟨singleLine_separated (singleLine_renderItems vs), by decide⟩⟩
  | .object ms =>
    singleLine_cons.mpr ⟨by decide, singleLine_append.mpr
      ⟨singleLine_separated (singleLine_renderMembers ms), by decide⟩⟩

theorem singleLine_renderItems : (vs : List Value) → ∀ t ∈ renderItems vs, SingleLine t
  | [] => fun _ ht => absurd ht List.not_mem_nil
  | v :: vs => List.forall_mem_cons.mpr ⟨singleLine_render v, singleLine_renderItems vs⟩

theorem singleLine_renderMembers : (ms : List (String × Value)) →
    ∀ t ∈ renderMembers ms, SingleLine t
  | [] => fun _ ht => absurd ht List.not_mem_nil
  | (k, v) :: ms => by
    have hmember : SingleLine (textLiteral k ++ ':' :: v.render) :=
      singleLine_append.mpr
        ⟨singleLine_textLiteral k, singleLine_cons.mpr ⟨by decide, singleLine_render v⟩⟩
    exact List.forall_mem_cons.mpr ⟨hmember, singleLine_renderMembers ms⟩

end

end Metering.Json
