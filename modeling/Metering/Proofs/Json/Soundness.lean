import Metering.Proofs.Json.Recognition

/-!
# Proofs: what is read was spelled

The readers accept nothing but texts of the grammar. What was read off the front of a text is
spelled by the characters that were taken, so the grammar says of every text whether it is read, and
as what.

A text is read in one pass that carries the first half of a surrogate pair along. What the pass
returns is therefore spelled only once the escape of that half is put back in front.
-/

namespace Metering.Json

/-! ## Escapes -/

theorem hexDigit_of_hexValue? {c : Char} {n : Nat} (h : hexValue? c = some n) : HexDigit c n := by
  have hall : ∀ k < 103, ∀ i < 16, hexValue? (Char.ofNat k) = some i →
      "0123456789abcdef".toList[i]? = some (Char.ofNat k) ∨
        "0123456789ABCDEF".toList[i]? = some (Char.ofNat k) := by decide
  have hbound : c.toNat < 103 ∧ n < 16 := by
    simp only [hexValue?] at h
    split at h
    · cases h
      omega
    split at h
    · cases h
      omega
    split at h
    · cases h
      omega
    · cases h
  have hdigit := hall c.toNat hbound.1 n hbound.2
  rw [Char.ofNat_toNat] at hdigit
  exact hdigit h

theorem hexDigits_of_unit? {a b c d : Char} {n : Nat} (h : unit? a b c d = some n) :
    HexDigits [a, b, c, d] n := by
  obtain ⟨i, hi, h⟩ := Option.bind_eq_some_iff.mp h
  obtain ⟨j, hj, h⟩ := Option.bind_eq_some_iff.mp h
  obtain ⟨k, hk, h⟩ := Option.bind_eq_some_iff.mp h
  obtain ⟨l, hl, h⟩ := Option.bind_eq_some_iff.mp h
  cases h
  exact .mk (hexDigit_of_hexValue? hi) (hexDigit_of_hexValue? hj) (hexDigit_of_hexValue? hk)
    (hexDigit_of_hexValue? hl)

theorem HexDigits.lt {u : List Char} {n : Nat} (h : HexDigits u n) : n < 0x10000 := by
  obtain ⟨ha, hb, hc, hd⟩ := h
  have := ha.lt
  have := hb.lt
  have := hc.lt
  have := hd.lt
  omega

theorem escape_of_escaped? {e c : Char} (h : escaped? e = some c) : Escape e c := by
  unfold escaped? at h
  split at h
  all_goals first | (cases h; constructor) | cases h

theorem toNat_ofNat_of_isValidChar {n : Nat} (h : n.isValidChar) : (Char.ofNat n).toNat = n := by
  rw [Char.ofNat, dif_pos h]
  rfl

/-- A unit that is not half of a surrogate pair is the number of a character. -/
theorem toNat_ofNat_unit {n : Nat} (hn : n < 0x10000) (hhigh : isHigh n = false)
    (hlow : isLow n = false) : (Char.ofNat n).toNat = n := by
  have hvalid : n.isValidChar := by
    simp only [isHigh, isLow, Bool.and_eq_false_iff, decide_eq_false_iff_not] at hhigh hlow
    simp only [Nat.isValidChar]
    omega
  exact toNat_ofNat_of_isValidChar hvalid

theorem toNat_pairChar {high low : Nat} (hhigh : isHigh high = true) (hlow : isLow low = true) :
    (pairChar high low).toNat = 0x10000 + (high - 0xd800) * 0x400 + (low - 0xdc00) := by
  simp only [isHigh, isLow, Bool.and_eq_true, decide_eq_true_eq] at hhigh hlow
  have hvalid : ((high - 0xd800) * 0x400 + (low - 0xdc00) + 0x10000).isValidChar := by
    simp only [Nat.isValidChar]
    omega
  rw [pairChar, toNat_ofNat_of_isValidChar hvalid]
  omega

/-! ## Texts -/

/-- What may stand between quotes for some characters, where the escape of the first half of a
surrogate pair has been taken off the front. -/
def SpellsAfter : Option Nat → List Char → List Char → Prop
  | none, cs, t => SpellsChars cs t
  | some high, cs, t => ∀ u, HexDigits u high → SpellsChars cs ('\\' :: 'u' :: (u ++ t))

theorem of_consChar {c : Char} {e : Except Fault (List Char × List Char)} {cs r : List Char}
    (h : consChar c e = .ok (cs, r)) : ∃ cs', cs = c :: cs' ∧ e = .ok (cs', r) := by
  cases e with
  | error fault => cases h
  | ok x =>
    cases h
    exact ⟨_, rfl, rfl⟩

theorem spellsAfter_pair {high low : Nat} {cs t : List Char} {a b c d : Char}
    (hhigh : isHigh high = true) (hlow : isLow low = true) (hunit : HexDigits [a, b, c, d] low)
    (h : SpellsChars cs t) :
    SpellsAfter (some high) (pairChar high low :: cs) ('\\' :: 'u' :: a :: b :: c :: d :: t) := by
  intro u hu
  have hchar := toNat_pairChar hhigh hlow
  simp only [isHigh, isLow, Bool.and_eq_true, decide_eq_true_eq] at hhigh hlow
  obtain ⟨i, rfl⟩ := Nat.exists_eq_add_of_le hhigh.1
  obtain ⟨j, rfl⟩ := Nat.exists_eq_add_of_le hlow.1
  rw [Nat.add_sub_cancel_left, Nat.add_sub_cancel_left] at hchar
  exact .pair hu (by omega) hunit (by omega) hchar h

/-- What is read up to the closing quote is spelled by what stands before it. -/
theorem spells_of_readChars (high : Option Nat) (s : List Char)
    (hhigh : ∀ n ∈ high, isHigh n = true) {cs r : List Char}
    (h : readChars high s = .ok (cs, r)) : ∃ t, SpellsAfter high cs t ∧ s = t ++ '"' :: r := by
  fun_induction readChars high s generalizing cs with
  | case3 a b c d r' n high hunit hlow ih =>
    obtain ⟨cs', rfl, hread⟩ := of_consChar h
    obtain ⟨t, ht, rfl⟩ := ih (by simp) hread
    exact ⟨_, spellsAfter_pair (hhigh high rfl) hlow (hexDigits_of_unit? hunit) ht, rfl⟩
  | case6 a b c d r' n hunit hlow hn ih =>
    have hhalf : ∀ k ∈ some n, isHigh k = true := by simpa using hn
    obtain ⟨t, ht, rfl⟩ := ih hhalf h
    exact ⟨_, ht _ (hexDigits_of_unit? hunit), rfl⟩
  | case7 a b c d r' n hunit hlow hn ih =>
    obtain ⟨cs', rfl, hread⟩ := of_consChar h
    obtain ⟨t, ht, rfl⟩ := ih (by simp) hread
    have hdigits := hexDigits_of_unit? hunit
    have hchar := toNat_ofNat_unit hdigits.lt (Bool.not_eq_true _ ▸ hn) (Bool.not_eq_true _ ▸ hlow)
    rw [← hchar] at hdigits
    exact ⟨_, .unit hdigits ht, rfl⟩
  | case11 e r' _ _ c he ih =>
    obtain ⟨cs', rfl, hread⟩ := of_consChar h
    obtain ⟨t, ht, rfl⟩ := ih (by simp) hread
    exact ⟨_, .escape (escape_of_escaped? he) ht, rfl⟩
  | case14 r' =>
    cases h
    exact ⟨[], .nil, rfl⟩
  | case16 c r' _ _ hend hslash hquote hc ih =>
    obtain ⟨cs', rfl, hread⟩ := of_consChar h
    obtain ⟨t, ht, rfl⟩ := ih (by simp) hread
    have hne : c ≠ '\\' := by
      rintro rfl
      cases hr' : t ++ '"' :: r with
      | nil => exact hend rfl hr'
      | cons d r'' => exact hslash d r'' rfl hr'
    exact ⟨c :: t, .plain hquote hne hc ht, rfl⟩
  -- all other cases end with a fault
  | _ => cases h

theorem of_readTextBody {s r : List Char} {x : String} (h : readTextBody s = .ok (x, r)) :
    ∃ t, SpellsChars x.toList t ∧ s = t ++ '"' :: r := by
  obtain ⟨⟨cs, r'⟩, hread, h⟩ := of_bind_eq_ok h
  cases h
  rw [String.toList_ofList]
  exact spells_of_readChars none s (by simp) hread

/-! ## The front of a text -/

theorem blank_of_skipSpaces {s t : List Char} (h : skipSpaces s = t) :
    ∃ b, Blank b ∧ s = b ++ t := by
  refine ⟨s.takeWhile isSpace, fun c hc => List.mem_takeWhile_imp hc, ?_⟩
  rw [← h, skipSpaces, List.takeWhile_append_dropWhile]

theorem of_readText {s r : List Char} {x : String} (h : readText s = .ok (x, r)) :
    ∃ b t, Blank b ∧ Spells (.value (.text x)) t ∧ s = b ++ (t ++ r) := by
  unfold readText at h
  split at h
  · cases h
  · next r' hskip =>
    obtain ⟨b, hb, rfl⟩ := blank_of_skipSpaces hskip
    obtain ⟨t, ht, rfl⟩ := of_readTextBody h
    exact ⟨b, _, hb, .text ht, by simp⟩
  · cases h

theorem of_readColon {s r : List Char} (h : readColon s = .ok r) :
    ∃ b, Blank b ∧ s = b ++ ':' :: r := by
  unfold readColon at h
  split at h
  · cases h
  · next r' hskip =>
    cases h
    exact blank_of_skipSpaces hskip
  · cases h

/-! ## Objects -/

/-- The texts of the members of an object that are left, from the first one or from a later one up
to the closing brace. -/
def SpellsRest : Bool → List (String × Value) → List Char → Prop
  | true, ms, t => Spells (.value (.object ms)) ('\x7b' :: (t ++ ['\x7d']))
  | false, ms, t => Spells (.afterMember ms) t

theorem spellsRest_nil {b : List Char} (isFirst : Bool) (hb : Blank b) : SpellsRest isFirst [] b := by
  cases isFirst with
  | true => exact .emptyObject hb
  | false => exact .lastMember hb

theorem of_key {s r : List Char} {k? : Option String} (h : nextKey.key s = .ok (k?, r)) :
    ∃ k t, k? = some k ∧ SpellsChars k.toList t ∧ s = t ++ '"' :: r := by
  obtain ⟨⟨k, r'⟩, hread, h⟩ := of_bind_eq_ok h
  cases h
  obtain ⟨t, ht, rfl⟩ := of_readTextBody hread
  exact ⟨k, t, rfl, ht, rfl⟩

/-- Where the object ends there is its brace, and otherwise a key with what leads to it. -/
theorem of_nextKey {isFirst : Bool} {s r : List Char} {k? : Option String}
    (h : nextKey isFirst s = .ok (k?, r)) :
    (k? = none ∧ ∃ b, Blank b ∧ s = b ++ '\x7d' :: r) ∨
      ∃ k b t, k? = some k ∧ Blank b ∧ SpellsChars k.toList t ∧
        (isFirst = true ∧ s = b ++ '"' :: (t ++ '"' :: r) ∨
          isFirst = false ∧ ∃ b', Blank b' ∧ s = b' ++ ',' :: (b ++ '"' :: (t ++ '"' :: r))) := by
  unfold nextKey at h
  split at h
  · cases h
  · next r' hskip =>
    cases h
    exact .inl ⟨rfl, blank_of_skipSpaces hskip⟩
  · next c r' _ hskip =>
    obtain ⟨b, hb, rfl⟩ := blank_of_skipSpaces hskip
    cases isFirst with
    | true =>
      rw [if_pos rfl] at h
      split at h
      · next hc =>
        subst hc
        obtain ⟨k, t, rfl, ht, rfl⟩ := of_key h
        exact .inr ⟨k, b, t, rfl, hb, ht, .inl ⟨rfl, rfl⟩⟩
      · cases h
    | false =>
      rw [if_neg Bool.false_ne_true] at h
      split at h
      · next hc =>
        subst hc
        split at h
        · cases h
        · next r'' hskip' =>
          obtain ⟨b', hb', rfl⟩ := blank_of_skipSpaces hskip'
          obtain ⟨k, t, rfl, ht, rfl⟩ := of_key h
          exact .inr ⟨k, b', t, rfl, hb', ht, .inr ⟨rfl, b, hb, rfl⟩⟩
        · cases h
        · cases h
      · cases h

section

variable {σ : Type} {member : σ → String → Reader σ} {step : σ → String × Value → Option σ}

/-- Whether the reader of a member accepts nothing but texts of members, and makes of them what the
members mean. -/
def SoundMember (member : σ → String → Reader σ) (step : σ → String × Value → Option σ) : Prop :=
  ∀ ⦃g g' k s r⦄, member g k s = .ok (g', r) →
    ∃ v b b' t, Blank b ∧ Blank b' ∧ Spells (.value v) t ∧ s = b ++ ':' :: (b' ++ (t ++ r)) ∧
      step g (k, v) = some g'

theorem spells_of_foldMembers (hsound : SoundMember member step) {n : Nat} {isFirst : Bool}
    {g g' : σ} {s r : List Char} (h : foldMembers member n isFirst g s = .ok (g', r)) :
    ∃ ms t, SpellsRest isFirst ms t ∧ s = t ++ '\x7d' :: r ∧ ms.foldlM step g = some g' := by
  induction n generalizing isFirst g s with
  | zero => cases h
  | succ n ih =>
    obtain ⟨⟨k?, s'⟩, hkey, hafter⟩ := of_bind_eq_ok h
    rcases of_nextKey hkey with ⟨rfl, b, hb, rfl⟩ | ⟨k, b, kt, rfl, hb, hkt, hlead⟩
    · obtain ⟨rfl, rfl⟩ := Prod.mk.inj (Except.ok.inj hafter)
      exact ⟨[], b, spellsRest_nil isFirst hb, rfl, rfl⟩
    · obtain ⟨⟨g₁, s₁⟩, hmember, hrest⟩ := of_bind_eq_ok hafter
      obtain ⟨v, b', b'', t, hb', hb'', ht, rfl, hstep⟩ := hsound hmember
      obtain ⟨ms, t', ht', rfl, hfold⟩ := ih hrest
      have hmembers : Spells (.members ((k, v) :: ms)) _ := .member hb hkt hb' hb'' ht ht'
      have hsteps : ((k, v) :: ms).foldlM step g = some g' := by
        rw [List.foldlM_cons, hstep]
        exact hfold
      rcases hlead with ⟨rfl, rfl⟩ | ⟨rfl, b₀, hb₀, rfl⟩
      · exact ⟨_, _, .object hmembers, by simp, hsteps⟩
      · exact ⟨_, _, .nextMember hb₀ hmembers, by simp, hsteps⟩

/-- An object that is read is spelled, and its members have been gathered one by one. -/
theorem spells_of_readMembers (hsound : SoundMember member step) {g g' : σ} {s r : List Char}
    (h : readMembers member g s = .ok (g', r)) :
    ∃ ms t, Spells (.value (.object ms)) ('\x7b' :: t) ∧ s = t ++ r ∧
      ms.foldlM step g = some g' := by
  obtain ⟨ms, t, ht, rfl, hfold⟩ := spells_of_foldMembers hsound h
  exact ⟨ms, t ++ ['\x7d'], ht, by simp, hfold⟩

end

/-! ## Whole texts -/

theorem readAll_eq_ok_iff {α : Type} {read : Reader α} {s : List Char} {x : α} :
    readAll read s = .ok x ↔ ∃ b, Blank b ∧ read s = .ok (x, b) := by
  constructor
  · intro h
    obtain ⟨⟨y, r⟩, hread, hend⟩ := of_bind_eq_ok h
    simp only at hend
    split at hend
    · next hskip =>
      obtain rfl := Except.ok.inj hend
      obtain ⟨b, hb, hr⟩ := blank_of_skipSpaces hskip
      rw [List.append_nil] at hr
      exact ⟨r, hr ▸ hb, hread⟩
    · cases hend
  · rintro ⟨b, hb, hread⟩
    simp only [readAll, hread, ok_bind, skipSpaces_of_blank hb]

end Metering.Json
