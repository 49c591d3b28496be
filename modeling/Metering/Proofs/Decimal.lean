import Mathlib.Data.Nat.Log
import Mathlib.Tactic.Ring
import Metering.Decimal.Digits

/-!
# Proofs: decimal digits

The digits of a number are read off the front of a text again, whatever follows them, as long as it
is not one more digit. Lists of digits show numbers by place: appending shifts by powers of ten.
-/

namespace Metering.Decimal

/-! ## The number that digits show -/

theorem ofDigits_foldl (ds : List Digit) (n : Nat) :
    ds.foldl (fun n d => 10 * n + d.val) n = n * 10 ^ ds.length + ofDigits ds := by
  induction ds generalizing n with
  | nil => simp [ofDigits]
  | cons d ds ih =>
    have h0 : ofDigits (d :: ds) = d.val * 10 ^ ds.length + ofDigits ds := by
      simp only [ofDigits, List.foldl_cons] at ih ⊢
      rw [ih]
      simp
    rw [List.foldl_cons, ih, h0, List.length_cons, pow_succ]
    ring

theorem ofDigits_cons (d : Digit) (ds : List Digit) :
    ofDigits (d :: ds) = d.val * 10 ^ ds.length + ofDigits ds := by
  rw [ofDigits, List.foldl_cons, ofDigits_foldl]
  simp

/-- Digits in front of others count as many places higher. -/
theorem ofDigits_append_list (ds es : List Digit) :
    ofDigits (ds ++ es) = ofDigits ds * 10 ^ es.length + ofDigits es := by
  rw [ofDigits, List.foldl_append, ofDigits_foldl, ← ofDigits]

theorem ofDigits_replicate_zero (k : Nat) : ofDigits (List.replicate k Digit.zero) = 0 := by
  induction k with
  | zero => rfl
  | succ k ih => rw [List.replicate_succ, ofDigits_cons, ih]; simp [Digit.zero]

theorem ofDigits_lt (ds : List Digit) : ofDigits ds < 10 ^ ds.length := by
  induction ds with
  | nil => simp [ofDigits]
  | cons d ds ih =>
    rw [ofDigits_cons, List.length_cons, pow_succ]
    have hd : d.val * 10 ^ ds.length ≤ 9 * 10 ^ ds.length :=
      Nat.mul_le_mul_right _ (by omega)
    omega

theorem lt_pow_length_digits (n : Nat) : n < 10 ^ (digits n).length := by
  conv_lhs => rw [← ofDigits_digits n]
  exact ofDigits_lt _

/-! ## No leading zero -/

theorem head?_digits_ne_zero (n : Nat) (hn : n ≠ 0) : (digits n).head? ≠ some Digit.zero := by
  induction n using Nat.strongRecOn with
  | ind n ih =>
    unfold digits
    split
    · next h =>
      intro he
      have : n = 0 := by simpa [Digit.zero, Fin.ext_iff] using he
      exact hn this
    · next h =>
      have hrest := ih (n / 10) (by omega) (by omega)
      cases hds : digits (n / 10) with
      | nil => exact absurd hds (digits_ne_nil _)
      | cons d ds =>
        rw [hds] at hrest
        exact hrest

theorem digits_zero : digits 0 = [Digit.zero] := by
  unfold digits
  rfl

/-- Only the number zero is shown with a zero in front, and then by that digit alone. -/
theorem digits_zero_cons (n : Nat) (ds : List Digit) (h : digits n = Digit.zero :: ds) :
    ds = [] := by
  by_cases hn : n = 0
  · rw [hn, digits_zero] at h
    exact (List.cons.inj h).2.symm
  · exact absurd (by rw [h]; rfl) (head?_digits_ne_zero n hn)

/-! ## Digits at the front of a text -/

/-- Whether the first character of a text, if there is one, is not a digit. -/
def StopsDigits (r : List Char) : Prop := ∀ c ∈ r.head?, Digit.ofChar? c = none

instance (r : List Char) : Decidable (StopsDigits r) :=
  match r with
  | [] => isTrue (by simp [StopsDigits])
  | c :: _ => decidable_of_iff (Digit.ofChar? c = none) (by simp [StopsDigits])

theorem spanDigits_of_stops (r : List Char) (h : StopsDigits r) : spanDigits r = ([], r) := by
  cases r with
  | nil => rfl
  | cons c r =>
    have hc : Digit.ofChar? c = none := h c rfl
    simp [spanDigits, hc]

/-- Digits are read off the front of a text that goes on with something else. -/
theorem spanDigits_digitsText (ds : List Digit) (r : List Char) (h : StopsDigits r) :
    spanDigits (digitsText ds ++ r) = (ds, r) := by
  induction ds with
  | nil => exact spanDigits_of_stops r h
  | cons d ds ih =>
    have hrest : digitsText (d :: ds) ++ r = d.char :: (digitsText ds ++ r) := rfl
    rw [hrest, spanDigits, Digit.ofChar?_char, ih]

theorem Digit.eq_char_of_ofChar? {c : Char} {d : Digit} (h : Digit.ofChar? c = some d) :
    c = d.char := by
  unfold Digit.ofChar? at h
  split at h
  · next hc =>
    obtain rfl := Option.some.inj h
    have hnat : 48 + (c.toNat - 48) = c.toNat := by omega
    rw [Digit.char, hnat, Char.ofNat_toNat]
  · cases h

/-- The digits that are taken off the front of a text are shown there. -/
theorem eq_append_of_spanDigits {s r : List Char} {ds : List Digit} (h : spanDigits s = (ds, r)) :
    s = digitsText ds ++ r := by
  induction s generalizing ds r with
  | nil =>
    cases h
    rfl
  | cons c s ih =>
    rw [spanDigits] at h
    split at h
    · next d hd =>
      cases h
      rw [digitsText, List.map_cons, List.cons_append, ← Digit.eq_char_of_ofChar? hd]
      exact congrArg (c :: ·) (ih rfl)
    · cases h
      rfl

/-- The text of a number starts with the character of a digit. -/
theorem text_eq_cons (n : Nat) : ∃ (d : Digit) (r : List Char), text n = d.char :: r := by
  cases h : digits n with
  | nil => exact absurd h (digits_ne_nil n)
  | cons d ds => exact ⟨d, digitsText ds, by rw [text, h]; rfl⟩

end Metering.Decimal
