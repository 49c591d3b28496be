import Metering.Json.Reader
import Metering.Proofs.Json.Numeral
import Metering.Proofs.Json.Text

/-!
# Proofs: values read back

A reader inverts the compact text of a value if it takes exactly that text off the front of a longer
one. Inside an array or an object a value is followed by a comma or by the closing bracket, and this
is all that a reader may rely on: a numeral would swallow a digit that follows.

What is read from an object is gathered member by member, so `MembersRead` says of each member what
the reading adds to what has been gathered before.
-/

namespace Metering.Json

open Decimal

theorem of_bind_eq_ok {α β : Type} {x : Except Fault α} {f : α → Except Fault β} {b : β}
    (h : (x >>= f) = .ok b) : ∃ a, x = .ok a ∧ f a = .ok b := by
  cases x with
  | error fault => cases h
  | ok a => exact ⟨a, rfl, h⟩

/-! ## Compact texts -/

theorem renderItems_eq_map (vs : List Value) : renderItems vs = vs.map Value.render := by
  induction vs with
  | nil => rfl
  | cons v vs ih => rw [renderItems, ih, List.map_cons]

theorem renderMembers_eq_map (ms : List (String × Value)) :
    renderMembers ms = ms.map fun m => textLiteral m.1 ++ ':' :: m.2.render := by
  induction ms with
  | nil => rfl
  | cons m ms ih => rw [renderMembers, ih, List.map_cons]

/-- All but the first of some texts have a comma in front. -/
theorem separated_cons (t : List Char) (ts : List (List Char)) :
    separated (t :: ts) = t ++ ts.flatMap (',' :: ·) := by
  induction ts generalizing t with
  | nil => simp [separated]
  | cons u ts ih => rw [separated, ih, List.flatMap_cons, List.cons_append]; simp

theorem length_le_flatMap (ts : List (List Char)) :
    ts.length ≤ (ts.flatMap (',' :: ·)).length := by
  induction ts with
  | nil => exact Nat.le_refl 0
  | cons t ts ih =>
    simp only [List.flatMap_cons, List.length_append, List.length_cons]
    omega

theorem skipSpaces_cons {c : Char} (r : List Char) (hc : isSpace c = false) :
    skipSpaces (c :: r) = c :: r := by
  simp [skipSpaces, hc]

/-! ## What follows a value -/

/-- Whether a text starts with the comma or the bracket that ends a value. -/
def Delimited (r : List Char) : Prop :=
  ∃ c t, r = c :: t ∧ (c = ',' ∨ c = ']' ∨ c = '\x7d')

theorem delimited_comma (r : List Char) : Delimited (',' :: r) := ⟨_, _, rfl, Or.inl rfl⟩

theorem delimited_bracket (r : List Char) : Delimited (']' :: r) := ⟨_, _, rfl, Or.inr (Or.inl rfl)⟩

theorem delimited_brace (r : List Char) : Delimited ('\x7d' :: r) :=
  ⟨_, _, rfl, Or.inr (Or.inr rfl)⟩

theorem Delimited.endsNumeral {r : List Char} (h : Delimited r) : EndsNumeral r := by
  obtain ⟨c, t, rfl, hc⟩ := h
  intro d hd
  obtain rfl : c = d := by simpa using hd
  rcases hc with rfl | rfl | rfl <;> decide

/-- A list of further elements or members, each after its comma, starts with a comma or with the
closing bracket. -/
theorem delimited_flatMap (ts : List (List Char)) (r : List Char) (hr : Delimited r) :
    Delimited (ts.flatMap (',' :: ·) ++ r) := by
  cases ts with
  | nil => exact hr
  | cons t ts => exact delimited_comma _

/-- Whether a reader inverts the text of a value. -/
def Reads {α : Type} (read : Reader α) (v : Value) (x : α) : Prop :=
  ∀ r, Delimited r → read (v.render ++ r) = .ok (x, r)

/-! ## Texts -/

theorem reads_text (s : String) : Reads readText (.text s) s := by
  intro r _
  rw [Value.render, textLiteral_append]
  exact readTextBody_escaped s r

theorem reads_optional_text (s : String) : Reads (readOptional readText) (.text s) (some s) := by
  intro r hr
  have h := reads_text s r hr
  rw [Value.render, textLiteral_append] at h ⊢
  simp [readOptional, skipSpaces, isSpace, h]

/-! ## Numbers -/

theorem startsNumeral_char (d : Digit) :
    startsNumeral d.char = true ∧ isSpace d.char = false ∧ d.char ≠ 'n' := by
  revert d
  decide

/-- The text of a numeral starts with a minus sign or a digit. -/
theorem Numeral.text_eq_cons (n : Numeral) :
    ∃ c t, n.text = c :: t ∧ startsNumeral c = true ∧ isSpace c = false ∧ c ≠ 'n' := by
  obtain ⟨d, t, ht⟩ := Decimal.text_eq_cons n.whole
  cases hn : n.negative with
  | true => exact ⟨'-', _, by simp only [Numeral.text, hn, if_true]; rfl, by decide⟩
  | false =>
    refine ⟨d.char, t ++ (fractionText n.fraction ++ exponentText n.exponent), ?_,
      startsNumeral_char d⟩
    simp [Numeral.text, hn, ht]

theorem readNumberAs_text (expected : Expected) (n : Numeral) (x : Number)
    (hx : n.number? = some x) (r : List Char) (hr : Delimited r) :
    readNumberAs expected (n.text ++ r) = .ok (x, r) := by
  have hread := readNumeral_text .endOfValue n r hr.endsNumeral
  obtain ⟨c, t, hn, hc, hspace, -⟩ := n.text_eq_cons
  rw [hn, List.cons_append] at hread ⊢
  simp only [readNumberAs, skipSpaces, List.dropWhile_cons, hspace, hc, if_true, if_false,
    readNumber, hread, ok_bind, hx, Bool.false_eq_true]

theorem readNatural_text (bits n : Nat) (hword : n < 2 ^ 64) (hbits : n < 2 ^ bits) (r : List Char)
    (hr : Delimited r) : readNatural bits ((Numeral.ofNat n).text ++ r) = .ok (n, r) := by
  have hread := readNumberAs_text (.word bits) _ _ (Numeral.number?_ofNat n hword) r hr
  have hlt : (n : Int) < ((2 ^ bits : Nat) : Int) := Int.ofNat_lt.mpr hbits
  rw [Int.natCast_pow] at hlt
  simp only [readNatural, hread, ok_bind]
  rw [if_pos ⟨Int.natCast_nonneg n, hlt⟩, Int.toNat_natCast]

theorem reads_word (n : UInt64) : Reads readWord (.number (.ofNat n.toNat)) n := by
  intro r hr
  have h := readNatural_text 64 n.toNat n.toNat_lt n.toNat_lt r hr
  simp only [Value.render, readWord, h, ok_bind, UInt64.ofNat_toNat]

theorem reads_optional_real (x : Binary64) (hx : x.isFinite) :
    Reads (readOptional readReal) (.number (.ofBinary64 x)) (some x) := by
  intro r hr
  have h := readNumberAs_text .real _ _ (Numeral.number?_ofBinary64 x hx) r hr
  obtain ⟨c, t, hn, -, hspace, hnull⟩ := (Numeral.ofBinary64 x).text_eq_cons
  rw [Value.render]
  rw [hn, List.cons_append] at h ⊢
  simp [readOptional, skipSpaces, hspace, hnull, readReal, h, Number.toBinary64]

/-! ## Arrays -/

/-- The text of a word as an element of an array. -/
def wordText (x : UInt64) : List Char := (Numeral.ofNat x.toNat).text

theorem nextElement_wordText (isFirst : Bool) (x : UInt64) (r : List Char) :
    nextElement isFirst ((if isFirst then [] else [',']) ++ (wordText x ++ r)) =
      .ok (some (wordText x ++ r)) := by
  obtain ⟨c, t, hn, hc, hspace, -⟩ := (Numeral.ofNat x.toNat).text_eq_cons
  have hbracket : c ≠ ']' := by
    rintro rfl
    exact absurd hc (by decide)
  have hcomma (r : List Char) : skipSpaces (',' :: r) = ',' :: r := skipSpaces_cons r rfl
  cases isFirst <;>
    simp [wordText, nextElement, skipSpaces_cons _ hspace, hcomma, hn, hbracket]

theorem readWordsFrom_cons (n i k : Nat) (x : UInt64) (r : List Char) (hr : Delimited r) :
    readWordsFrom n i (k + 1) ((if i == 0 then [] else [',']) ++ (wordText x ++ r)) =
      (do let (xs, r) ← readWordsFrom n (i + 1) k r; .ok (xs.cons x, r)) := by
  have hword : readWord (wordText x ++ r) = .ok (x, r) := reads_word x r hr
  rw [readWordsFrom, nextElement_wordText]
  simp only [ok_bind, hword]

/-- The elements after the first one are read up to the closing bracket. -/
theorem readWordsFrom_flatMap (n i : Nat) (xs : List UInt64) (r : List Char) :
    readWordsFrom n (i + 1) xs.length ((xs.map wordText).flatMap (',' :: ·) ++ ']' :: r) =
      .ok (⟨xs, rfl⟩, ']' :: r) := by
  induction xs generalizing i with
  | nil => rfl
  | cons x xs ih =>
    have hr := delimited_flatMap (xs.map wordText) _ (delimited_bracket r)
    have h := readWordsFrom_cons n (i + 1) xs.length x _ hr
    simp only [List.map_cons, List.flatMap_cons, List.length_cons, List.cons_append,
      List.append_assoc]
    rw [ih (i + 1), ok_bind] at h
    exact h

theorem readWordsFrom_separated (n : Nat) (xs : List UInt64) (r : List Char) :
    readWordsFrom n 0 xs.length (separated (xs.map wordText) ++ ']' :: r) =
      .ok (⟨xs, rfl⟩, ']' :: r) := by
  cases xs with
  | nil => rfl
  | cons x xs =>
    have hr := delimited_flatMap (xs.map wordText) _ (delimited_bracket r)
    have h := readWordsFrom_cons n 0 xs.length x _ hr
    rw [List.map_cons, separated_cons, List.append_assoc]
    rw [readWordsFrom_flatMap, ok_bind] at h
    exact h

theorem reads_words {n : Nat} (w : Words n) :
    Reads (readWords n) (.list (w.toList.map fun x => .number (.ofNat x.toNat))) w := by
  intro r _
  obtain ⟨xs, rfl⟩ := w
  have hitems : renderItems (xs.map fun x => .number (.ofNat x.toNat)) = xs.map wordText := by
    rw [renderItems_eq_map, List.map_map]
    rfl
  simp only [Value.render, hitems, List.cons_append, List.append_assoc, List.nil_append]
  simp [readWords, skipSpaces, isSpace, readWordsFrom_separated, closeList]

/-! ## Objects -/

/-- How reading the given members changes what has been gathered. -/
inductive MembersRead {σ : Type} (member : σ → String → Reader σ) :
    List (String × Value) → σ → σ → Prop
  /-- No members change nothing. -/
  | nil (g : σ) : MembersRead member [] g g
  /-- A member is read, and then the others. -/
  | cons {k : String} {v : Value} {ms : List (String × Value)} {g g' g'' : σ} :
      (∀ r, Delimited r → member g k (':' :: (v.render ++ r)) = .ok (g', r)) →
      MembersRead member ms g' g'' → MembersRead member ((k, v) :: ms) g g''

section Members

variable {σ : Type} {member : σ → String → Reader σ}

theorem nextKey_quote (isFirst : Bool) (k : String) (r : List Char) :
    nextKey isFirst ((if isFirst then [] else [',']) ++ (textLiteral k ++ r)) =
      .ok (some k, r) := by
  cases isFirst <;>
    simp [nextKey, nextKey.key, skipSpaces, isSpace, textLiteral_append, readTextBody_escaped]

theorem readColon_colon (s : List Char) : readColon (':' :: s) = .ok s := by
  simp only [readColon, skipSpaces_cons s (c := ':') rfl]

theorem nextKey_brace (isFirst : Bool) (r : List Char) :
    nextKey isFirst ('\x7d' :: r) = .ok (none, r) := by
  simp [nextKey, skipSpaces, isSpace]

theorem foldMembers_cons {n : Nat} (isFirst : Bool) {k : String} {v : Value} {g g' : σ}
    (r : List Char) (hmember : member g k (':' :: (v.render ++ r)) = .ok (g', r)) :
    foldMembers member (n + 1) isFirst g
        ((if isFirst then [] else [',']) ++ (textLiteral k ++ ':' :: (v.render ++ r))) =
      foldMembers member n false g' r := by
  rw [foldMembers, nextKey_quote]
  simp only [ok_bind, hmember]

/-- The members after the first one are read up to the closing brace. -/
theorem foldMembers_flatMap {ms : List (String × Value)} {g g' : σ} (n : Nat) (r : List Char)
    (hn : ms.length ≤ n) (h : MembersRead member ms g g') :
    foldMembers member (n + 1) false g ((renderMembers ms).flatMap (',' :: ·) ++ '\x7d' :: r) =
      .ok (g', r) := by
  induction h generalizing n with
  | nil g =>
    rw [renderMembers, List.flatMap_nil, List.nil_append, foldMembers, nextKey_brace]
    rfl
  | @cons k v ms g g' g'' hmember hms ih =>
    obtain ⟨n, rfl⟩ : ∃ m, n = m + 1 := ⟨n - 1, by simp at hn; omega⟩
    have hr := delimited_flatMap (renderMembers ms) _ (delimited_brace r)
    have hstep := foldMembers_cons (n := n + 1) false _ (hmember _ hr)
    rw [ih n (by simpa using hn)] at hstep
    simpa [renderMembers] using hstep

/-- The members of an object are read up to its closing brace. -/
theorem readMembers_separated {ms : List (String × Value)} {g g' : σ} (r : List Char)
    (h : MembersRead member ms g g') :
    readMembers member g (separated (renderMembers ms) ++ '\x7d' :: r) = .ok (g', r) := by
  rw [readMembers]
  cases h with
  | nil g =>
    rw [renderMembers, separated, List.nil_append, foldMembers, nextKey_brace]
    rfl
  | @cons k v ms g g' g'' hmember hms =>
    have hr := delimited_flatMap (renderMembers ms) _ (delimited_brace r)
    rw [renderMembers, separated_cons]
    simp only [List.append_assoc, List.cons_append]
    -- Each further member takes at least its comma, so the length of the text is bound enough.
    have hlength : ms.length + 1 ≤ (textLiteral k ++ ':' :: (v.render ++
        ((renderMembers ms).flatMap (',' :: ·) ++ '\x7d' :: r))).length := by
      have hle := length_le_flatMap (renderMembers ms)
      rw [renderMembers_eq_map, List.length_map] at hle
      simp only [renderMembers_eq_map, List.length_append, List.length_cons]
      omega
    obtain ⟨n, hn⟩ := Nat.exists_eq_add_of_le hlength
    have hstep := foldMembers_cons (n := ms.length + n + 1) true _ (hmember _ hr)
    rw [foldMembers_flatMap _ r (Nat.le_add_right _ n) hms] at hstep
    rw [hn, Nat.add_right_comm ms.length 1 n]
    exact hstep

end Members

end Metering.Json
