import Metering.Proofs.Json.Grammar

/-!
# Proofs: what the typed readers make of a value

A typed reader gets along without values: it looks at the characters of a text only. Seen from the
grammar it makes something of each value, or refuses it, and this depends neither on the text that
spells the value nor on what follows. Which fault a value is refused with is left open here.
-/

namespace Metering.Json

/-! ## The meaning of a value -/

namespace Value

/-- The text that a value is. -/
def text? : Value → Option String
  | .text s => some s
  | _ => none

/-- The number that a value is, if it is in range. -/
def number? : Value → Option Number
  | .number n => n.number?
  | _ => none

/-- The word that a value is. -/
def word? (v : Value) : Option UInt64 :=
  match v.number? with
  | some (.integer i) => if 0 ≤ i ∧ i < 2 ^ 64 then some (UInt64.ofNat i.toNat) else none
  | _ => none

/-- The binary64 number that a value is. -/
def real? (v : Value) : Option Binary64 := v.number?.map Number.toBinary64

/-- The meaning of a value that may be `null`. -/
def optional? {α : Type} (meaning : Value → Option α) : Value → Option (Option α)
  | .null => some none
  | v => (meaning v).map some

/-- Exactly so many words. -/
def wordsOf? : (k : Nat) → List Value → Option (Words k)
  | 0, [] => some .nil
  | k + 1, v :: vs => v.word?.bind fun x => (wordsOf? k vs).map (·.cons x)
  | _, _ => none

/-- The words that a value is an array of. -/
def words? (k : Nat) : Value → Option (Words k)
  | .list vs => wordsOf? k vs
  | _ => none

end Value

/-- Whether a reader makes of every text of a value what the value means, and leaves what
follows. -/
def Recognizes {α : Type} (read : Reader α) (meaning : Value → Option α) : Prop :=
  ∀ ⦃v t b r⦄, Spells (.value v) t → Blank b → EndsNumeral r →
    (read (b ++ (t ++ r))).toOption = (meaning v).map fun x => (x, r)

theorem toOption_bind {α β : Type} (e : Except Fault α) (f : α → Except Fault β) :
    (e >>= f).toOption = e.toOption.bind fun x => (f x).toOption := by
  cases e <;> rfl

theorem toOption_eq_some {α : Type} {e : Except Fault α} {x : α} :
    e.toOption = some x ↔ e = .ok x := by
  cases e <;> simp [Except.toOption]

theorem Recognizes.map {α β : Type} {read : Reader α} {meaning : Value → Option α}
    (h : Recognizes read meaning) (f : α → β) :
    Recognizes (fun s => do let (x, r) ← read s; .ok (f x, r)) fun v => (meaning v).map f := by
  intro v t b r ht hb hr
  simp only [toOption_bind, h ht hb hr]
  cases meaning v <;> rfl

/-! ## Kinds of values by their first characters -/

theorem Value.opens_quote {v : Value} (h : v.Opens '"') : ∃ s, v = .text s := by
  cases v with
  | text s => exact ⟨s, rfl⟩
  | bool x => cases x <;> exact absurd h (by simp [Value.Opens])
  | number n => exact absurd rfl (startsNumeral_ne h (by decide))
  | _ => exact absurd h (by simp [Value.Opens])

theorem Value.opens_bracket {v : Value} (h : v.Opens '[') : ∃ vs, v = .list vs := by
  cases v with
  | list vs => exact ⟨vs, rfl⟩
  | bool x => cases x <;> exact absurd h (by simp [Value.Opens])
  | number n => exact absurd rfl (startsNumeral_ne h (by decide))
  | _ => exact absurd h (by simp [Value.Opens])

theorem Value.opens_brace {v : Value} (h : v.Opens '\x7b') : ∃ ms, v = .object ms := by
  cases v with
  | object ms => exact ⟨ms, rfl⟩
  | bool x => cases x <;> exact absurd h (by simp [Value.Opens])
  | number n => exact absurd rfl (startsNumeral_ne h (by decide))
  | _ => exact absurd h (by simp [Value.Opens])

theorem Value.opens_null {v : Value} (h : v.Opens 'n') : v = .null := by
  cases v with
  | null => rfl
  | bool x => cases x <;> exact absurd h (by simp [Value.Opens])
  | number n => exact absurd rfl (startsNumeral_ne h (by decide))
  | _ => exact absurd h (by simp [Value.Opens])

theorem Value.opens_numeral {v : Value} {c : Char} (h : v.Opens c) (hc : startsNumeral c = true) :
    ∃ n, v = .number n := by
  cases v with
  | number n => exact ⟨n, rfl⟩
  | bool x =>
    cases x
    all_goals
      obtain rfl := h
      exact absurd hc (by decide)
  | _ =>
    obtain rfl := h
    exact absurd hc (by decide)

/-! ## Texts and numbers -/

theorem recognizes_text : Recognizes readText Value.text? := by
  intro v t b r ht hb _
  obtain ⟨c, t', rfl, hopens, hspace⟩ := ht.eq_cons
  by_cases hc : c = '"'
  · subst hc
    obtain ⟨s, rfl⟩ := Value.opens_quote hopens
    cases ht with
    | text hs =>
      simp [readText, skipSpaces_blank_cons hb hspace, hs.readTextBody, Except.toOption,
        Value.text?]
  · have hv : v.text? = none := by
      cases v with
      | text s => exact absurd hopens hc
      | _ => rfl
    simp [readText, skipSpaces_blank_cons hb hspace, hv, Except.toOption]

theorem recognizes_number (expected : Expected) :
    Recognizes (readNumberAs expected) Value.number? := by
  intro v t b r ht hb hr
  obtain ⟨c, t', rfl, hopens, hspace⟩ := ht.eq_cons
  by_cases hc : startsNumeral c = true
  · obtain ⟨n, rfl⟩ := Value.opens_numeral hopens hc
    cases ht with
    | number hn =>
      have hread := hn.readNumeral .endOfValue hr
      rw [List.cons_append] at hread
      simp only [List.cons_append, readNumberAs, skipSpaces_blank_cons hb hspace, hc, if_true,
        readNumber, hread, ok_bind, Value.number?]
      cases n.number? <;> rfl
  · have hv : v.number? = none := by
      cases v with
      | number n => exact absurd hopens hc
      | _ => rfl
    simp only [List.cons_append, readNumberAs, skipSpaces_blank_cons hb hspace, hv, if_neg hc]
    rfl

theorem recognizes_word : Recognizes readWord Value.word? := by
  intro v t b r ht hb hr
  simp only [readWord, readNatural, toOption_bind, recognizes_number (.word 64) ht hb hr,
    Value.word?]
  cases v.number? with
  | none => rfl
  | some x =>
    cases x with
    | integer i =>
      by_cases hi : 0 ≤ i ∧ i < 2 ^ 64
      · simp only [Option.map_some, Option.bind_some, if_pos hi]
        rfl
      · simp only [Option.map_some, Option.bind_some, if_neg hi]
        rfl
    | real x => rfl

theorem recognizes_real : Recognizes readReal Value.real? := by
  intro v t b r ht hb hr
  simp only [readReal, toOption_bind, recognizes_number .real ht hb hr, Value.real?]
  cases v.number? <;> rfl

theorem recognizes_optional {α : Type} {read : Reader α} {meaning : Value → Option α}
    (h : Recognizes read meaning) : Recognizes (readOptional read) (Value.optional? meaning) := by
  intro v t b r ht hb hr
  have hread := h ht hb hr
  obtain ⟨c, t', rfl, hopens, hspace⟩ := ht.eq_cons
  rw [List.cons_append] at hread
  by_cases hc : c = 'n'
  · subst hc
    obtain rfl := Value.opens_null hopens
    cases ht with
    | nullWord =>
      simp [readOptional, skipSpaces_blank_cons hb hspace, dropWord, Value.optional?,
        Except.toOption]
  · have hv : Value.optional? meaning v = (meaning v).map some := by
      cases v with
      | null => exact absurd hopens hc
      | _ => rfl
    have hskip : readOptional read (b ++ c :: (t' ++ r)) =
        (do let (x, r) ← read (b ++ c :: (t' ++ r)); .ok (some x, r)) := by
      simp only [readOptional, skipSpaces_blank_cons hb hspace]
      split
      · next h => exact absurd (List.cons.inj h).1 hc
      · rfl
    rw [List.cons_append, hskip, toOption_bind, hread, hv]
    cases meaning v <;> rfl

/-! ## Arrays of words -/

theorem nextElement_first {b : List Char} {c : Char} (hb : Blank b) (hspace : isSpace c = false)
    (hc : c ≠ ']') (r : List Char) :
    nextElement true (b ++ c :: r) = .ok (some (c :: r)) := by
  simp [nextElement, skipSpaces_blank_cons hb hspace]

theorem nextElement_comma {b b' : List Char} {c : Char} (hb : Blank b) (hb' : Blank b')
    (hspace : isSpace c = false) (hc : c ≠ ']') (r : List Char) :
    nextElement false (b ++ ',' :: (b' ++ c :: r)) = .ok (some (c :: r)) := by
  simp [nextElement, skipSpaces_blank_cons (c := ',') hb rfl, skipSpaces_blank_cons hb' hspace]
  split
  · next h => cases h
  · next h => exact absurd (List.cons.inj h).1 hc
  · rfl

theorem nextElement_end {b : List Char} (isFirst : Bool) (hb : Blank b) (r : List Char) :
    nextElement isFirst (b ++ ']' :: r) = .ok none := by
  simp [nextElement, skipSpaces_blank_cons (c := ']') hb rfl]

theorem closeList_end {b : List Char} (hb : Blank b) (r : List Char) :
    closeList (b ++ ']' :: r) = .ok r := by
  simp [closeList, skipSpaces_blank_cons (c := ']') hb rfl]

theorem closeList_comma {b : List Char} (hb : Blank b) (r : List Char) :
    (closeList (b ++ ',' :: r)).toOption = none := by
  simp only [closeList, skipSpaces_blank_cons (c := ',') hb rfl]
  split <;> rfl

/-- Reads the last `k` of `n` words and the end of their array. -/
def readWordsToEnd (n i k : Nat) : Reader (Words k) := fun s => do
  let (xs, r) ← readWordsFrom n i k s
  .ok (xs, ← closeList r)

theorem readWordsToEnd_succ {n i k : Nat} {s s' r : List Char} {m : Option UInt64}
    (hnext : nextElement (i == 0) s = .ok (some s'))
    (hword : (readWord s').toOption = m.map fun x => (x, r)) :
    (readWordsToEnd n i (k + 1) s).toOption =
      m.bind fun x =>
        (readWordsToEnd n (i + 1) k r).toOption.map fun (xs, r) => (xs.cons x, r) := by
  simp only [readWordsToEnd, readWordsFrom, hnext, ok_bind, toOption_bind, hword]
  cases m with
  | none => rfl
  | some x =>
    simp only [Option.map_some, Option.bind_some]
    cases readWordsFrom n (i + 1) k r with
    | error fault => rfl
    | ok xs =>
      simp only [Except.toOption, Option.bind_some]
      cases closeList xs.2 <;> rfl

/-- The elements after a first one are read as exactly so many words. -/
theorem readWordsToEnd_afterItem (n i : Nat) {k : Nat} {vs : List Value} {t r : List Char}
    (ht : Spells (.afterItem vs) t) :
    (readWordsToEnd n (i + 1) k (t ++ ']' :: r)).toOption =
      (Value.wordsOf? k vs).map fun x => (x, r) := by
  induction vs generalizing i k t with
  | nil =>
    cases ht with
    | lastItem hb =>
      cases k with
      | zero =>
        simp only [readWordsToEnd, readWordsFrom, closeList_end hb, ok_bind]
        rfl
      | succ k =>
        simp only [readWordsToEnd, readWordsFrom, nextElement_end _ hb, ok_bind]
        rfl
    | nextItem _ hitems => cases hitems
  | cons v vs ih =>
    cases ht with
    | nextItem hb hitems =>
      cases hitems with
      | @item _ _ b' t r₁ hb' hv hafter =>
        cases k with
        | zero =>
          simp only [readWordsToEnd, readWordsFrom, ok_bind, toOption_bind, List.append_assoc,
            List.cons_append, closeList_comma hb]
          rfl
        | succ k =>
          have hword := recognizes_word hv blank_nil (hafter.endsNumeral_afterItem r)
          obtain ⟨c, t', rfl, hopens, hspace⟩ := hv.eq_cons
          have hnext : nextElement (i + 1 == 0) _ = _ :=
            nextElement_comma hb hb' hspace hopens.ne_bracket (t' ++ (r₁ ++ ']' :: r))
          simp only [List.nil_append, List.append_assoc, List.cons_append] at hword ⊢
          rw [readWordsToEnd_succ hnext hword, ih (i + 1) hafter, Value.wordsOf?]
          cases v.word? with
          | none => rfl
          | some x => cases Value.wordsOf? k vs <;> rfl

/-- The elements of an array are read as exactly so many words. -/
theorem readWordsToEnd_items (n : Nat) {k : Nat} {vs : List Value} {t r : List Char}
    (ht : Spells (.items vs) t) :
    (readWordsToEnd n 0 (k + 1) (t ++ ']' :: r)).toOption =
      (Value.wordsOf? (k + 1) vs).map fun x => (x, r) := by
  cases ht with
  | @item v vs b t r₁ hb hv hafter =>
    have hword := recognizes_word hv blank_nil (hafter.endsNumeral_afterItem r)
    obtain ⟨c, t', rfl, hopens, hspace⟩ := hv.eq_cons
    have hnext : nextElement (0 == 0) _ = _ :=
      nextElement_first hb hspace hopens.ne_bracket (t' ++ (r₁ ++ ']' :: r))
    simp only [List.nil_append, List.append_assoc, List.cons_append] at hword ⊢
    rw [readWordsToEnd_succ hnext hword, readWordsToEnd_afterItem n 0 hafter, Value.wordsOf?]
    cases v.word? with
    | none => rfl
    | some x => cases Value.wordsOf? k vs <;> rfl

theorem recognizes_words (n : Nat) : Recognizes (readWords (n + 1)) (Value.words? (n + 1)) := by
  intro v t b r ht hb _
  obtain ⟨c, t', rfl, hopens, hspace⟩ := ht.eq_cons
  by_cases hc : c = '['
  · subst hc
    obtain ⟨vs, rfl⟩ := Value.opens_bracket hopens
    have hread : readWords (n + 1) (b ++ '[' :: (t' ++ r)) =
        readWordsToEnd (n + 1) 0 (n + 1) (t' ++ r) := by
      simp [readWords, skipSpaces_blank_cons hb hspace, readWordsToEnd]
    rw [List.cons_append, hread]
    cases ht with
    | @emptyList b' hb' =>
      simp only [readWordsToEnd, readWordsFrom, List.append_assoc, List.cons_append,
        List.nil_append, nextElement_end _ hb', ok_bind]
      rfl
    | list hitems =>
      rw [List.append_assoc]
      exact readWordsToEnd_items (n + 1) hitems
  · have hv : v.words? (n + 1) = none := by
      cases v with
      | list vs => exact absurd hopens hc
      | _ => rfl
    simp [readWords, skipSpaces_blank_cons hb hspace, hv, Except.toOption]

/-! ## Objects -/

section

variable {σ : Type} {member : σ → String → Reader σ} {step : σ → String × Value → Option σ}

/-- Whether the reader of a member makes of every text of a member what the member means. -/
def RecognizesMember (member : σ → String → Reader σ) (step : σ → String × Value → Option σ) :
    Prop :=
  ∀ ⦃g k v t b b' r⦄, Spells (.value v) t → Blank b → Blank b' → EndsNumeral r →
    (member g k (b ++ ':' :: (b' ++ (t ++ r)))).toOption = (step g (k, v)).map fun g' => (g', r)

theorem readColon_blank {b : List Char} (hb : Blank b) (r : List Char) :
    readColon (b ++ ':' :: r) = .ok r := by
  simp [readColon, skipSpaces_blank_cons (c := ':') hb rfl]

theorem nextKey_first {k : String} {b t : List Char} (hb : Blank b) (hk : SpellsChars k.toList t)
    (r : List Char) : nextKey true (b ++ '"' :: (t ++ '"' :: r)) = .ok (some k, r) := by
  simp [nextKey, nextKey.key, skipSpaces_blank_cons (c := '"') hb rfl, hk.readTextBody]

theorem nextKey_comma {k : String} {b b' t : List Char} (hb : Blank b) (hb' : Blank b')
    (hk : SpellsChars k.toList t) (r : List Char) :
    nextKey false (b ++ ',' :: (b' ++ '"' :: (t ++ '"' :: r))) = .ok (some k, r) := by
  simp [nextKey, nextKey.key, skipSpaces_blank_cons (c := ',') hb rfl,
    skipSpaces_blank_cons (c := '"') hb' rfl, hk.readTextBody]

theorem nextKey_end {b : List Char} (isFirst : Bool) (hb : Blank b) (r : List Char) :
    nextKey isFirst (b ++ '\x7d' :: r) = .ok (none, r) := by
  simp [nextKey, skipSpaces_blank_cons (c := '\x7d') hb rfl]

theorem foldMembers_succ {n : Nat} {isFirst : Bool} {g : σ} {s s' r : List Char} {k : String}
    {m : Option σ} (hkey : nextKey isFirst s = .ok (some k, s'))
    (hmember : (member g k s').toOption = m.map fun g' => (g', r)) :
    (foldMembers member (n + 1) isFirst g s).toOption =
      m.bind fun g' => (foldMembers member n false g' r).toOption := by
  simp only [foldMembers, hkey, ok_bind, toOption_bind, hmember]
  cases m <;> rfl

/-- The members after a first one are gathered one by one. -/
theorem foldMembers_afterMember (h : RecognizesMember member step) {ms : List (String × Value)}
    {t : List Char} (ht : Spells (.afterMember ms) t) {n : Nat} (hn : ms.length < n) (g : σ)
    (r : List Char) :
    (foldMembers member n false g (t ++ '\x7d' :: r)).toOption =
      (ms.foldlM step g).map fun g' => (g', r) := by
  induction ms generalizing t n g with
  | nil =>
    obtain ⟨n, rfl⟩ := Nat.exists_eq_succ_of_ne_zero (Nat.ne_of_gt hn)
    cases ht with
    | lastMember hb =>
      simp only [foldMembers, nextKey_end false hb, ok_bind]
      rfl
    | nextMember _ hmembers => cases hmembers
  | cons m ms ih =>
    obtain ⟨n, rfl⟩ := Nat.exists_eq_succ_of_ne_zero (Nat.ne_of_gt (Nat.zero_lt_of_lt hn))
    cases ht with
    | nextMember hb hmembers =>
      cases hmembers with
      | @member k v _ b₁ kt b₂ b₃ t r₁ hb₁ hk hb₂ hb₃ hv hafter =>
        have hkey := nextKey_comma hb hb₁ hk (b₂ ++ ':' :: (b₃ ++ (t ++ (r₁ ++ '\x7d' :: r))))
        have hmember := @h g k v t b₂ b₃ _ hv hb₂ hb₃ (hafter.endsNumeral_afterMember r)
        simp only [List.append_assoc, List.cons_append]
        rw [foldMembers_succ hkey hmember, List.foldlM_cons]
        cases step g (k, v) with
        | none => rfl
        | some g' => exact ih hafter (by simpa using hn) g'

/-- Each further member takes at least its comma. -/
theorem Spells.length_afterMember {ms : List (String × Value)} {t : List Char}
    (h : Spells (.afterMember ms) t) : ms.length ≤ t.length := by
  induction ms generalizing t with
  | nil => exact Nat.zero_le _
  | cons m ms ih =>
    cases h with
    | nextMember _ hmembers =>
      cases hmembers with
      | member _ _ _ _ _ hafter =>
        have hle := ih hafter
        simp only [List.length_append, List.length_cons]
        omega

/-- The members of an object are gathered one by one. -/
theorem readMembers_object (h : RecognizesMember member step) {ms : List (String × Value)}
    {t : List Char} (ht : Spells (.value (.object ms)) ('\x7b' :: t)) (g : σ) (r : List Char) :
    (readMembers member g (t ++ r)).toOption = (ms.foldlM step g).map fun g' => (g', r) := by
  rw [readMembers]
  cases ht with
  | emptyObject hb =>
    simp only [List.append_assoc, List.cons_append, List.nil_append, foldMembers,
      nextKey_end true hb, ok_bind]
    rfl
  | object hmembers =>
    cases hmembers with
    | @member k v ms b₁ kt b₂ b₃ t r₁ hb₁ hk hb₂ hb₃ hv hafter =>
      have hkey := nextKey_first hb₁ hk (b₂ ++ ':' :: (b₃ ++ (t ++ (r₁ ++ '\x7d' :: r))))
      have hmember := @h g k v t b₂ b₃ _ hv hb₂ hb₃ (hafter.endsNumeral_afterMember r)
      have hlength := hafter.length_afterMember
      simp only [List.append_assoc, List.cons_append, List.nil_append]
      rw [foldMembers_succ hkey hmember, List.foldlM_cons]
      cases step g (k, v) with
      | none => rfl
      | some g' =>
        refine foldMembers_afterMember h hafter ?_ g' r
        simp only [List.length_append, List.length_cons]
        omega

end

end Metering.Json
