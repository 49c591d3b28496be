/-!
# Decimal digits

A natural number and its decimal digits, most significant first and without a leading zero. The
value of the digits of `n` is `n`, so a number is never lost in its text.
-/

namespace Metering.Decimal

/-- A decimal digit. -/
abbrev Digit := Fin 10

/-- The digit zero. -/
def Digit.zero : Digit := ⟨0, by decide⟩

/-- The character of a digit. -/
def Digit.char (d : Digit) : Char := Char.ofNat (48 + d.val)

/-- The digit that a character shows, if it is one of `0` to `9`. -/
def Digit.ofChar? (c : Char) : Option Digit :=
  if h : 48 ≤ c.toNat ∧ c.toNat < 58 then some ⟨c.toNat - 48, by omega⟩ else none

/-- The digits of a number, most significant first; zero has the one digit `0`. -/
def digits (n : Nat) : List Digit :=
  if h : n < 10 then [⟨n, h⟩] else digits (n / 10) ++ [⟨n % 10, Nat.mod_lt _ (by decide)⟩]
termination_by n
decreasing_by omega

/-- The number that a list of digits shows, most significant first. -/
def ofDigits (ds : List Digit) : Nat := ds.foldl (fun n d => 10 * n + d.val) 0

/-- The decimal text of a list of digits. -/
def digitsText (ds : List Digit) : List Char := ds.map Digit.char

/-- The decimal text of a number. -/
def text (n : Nat) : List Char := digitsText (digits n)

/-- Splits a text after its leading digits. -/
def spanDigits : List Char → List Digit × List Char
  | [] => ([], [])
  | c :: r =>
    match Digit.ofChar? c with
    | some d => let (ds, rest) := spanDigits r; (d :: ds, rest)
    | none => ([], c :: r)

/-! ## The digits of a number show the number -/

theorem ofDigits_append (ds : List Digit) (d : Digit) :
    ofDigits (ds ++ [d]) = 10 * ofDigits ds + d.val := by
  simp [ofDigits]

theorem ofDigits_digits (n : Nat) : ofDigits (digits n) = n := by
  induction n using Nat.strongRecOn with
  | ind n ih =>
    unfold digits
    split
    · simp [ofDigits]
    · next h => rw [ofDigits_append, ih (n / 10) (by omega)]; simp; omega

theorem digits_ne_nil (n : Nat) : digits n ≠ [] := by
  unfold digits
  split <;> simp

theorem Digit.ofChar?_char (d : Digit) : Digit.ofChar? d.char = some d := by
  revert d; decide

end Metering.Decimal
