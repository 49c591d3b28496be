import Metering.Proofs.Binary64.Rounding
import Metering.Proofs.Decimal

/-!
# Proofs: the shortest decimal reads back

Every candidate of the search is checked by reading it, and the exact decimal stands behind them, so
what is shown of a finite number is read as that number again. It also has few enough digits to be
read as it stands.
-/

namespace Metering

theorem DecimalNumber.digits_strip_le (d : DecimalNumber) : d.strip.digits ≤ d.digits := by
  fun_induction DecimalNumber.strip d with
  | case1 d h => exact Nat.zero_le _
  | case2 d h hmod ih => exact ih.trans (Nat.div_le_self _ _)
  | case3 d h hmod => exact Nat.le_refl _

namespace Binary64

/-! ## The size of a candidate -/

theorem lt_of_shift_up {u p k n g c : Nat} (hk : k = n + g + c) (h : u * 10 ^ c < 10 ^ k * p) :
    u < 10 ^ n * (p * 10 ^ g) := by
  refine Nat.lt_of_mul_lt_mul_right (a := 10 ^ c) ?_
  calc u * 10 ^ c < 10 ^ k * p := h
    _ = 10 ^ n * (p * 10 ^ g) * 10 ^ c := by rw [hk, pow_add, pow_add]; ac_rfl

theorem lt_of_shift_down {u p k n g c : Nat} (hk : k + g = n + c) (h : u * 10 ^ c < 10 ^ k * p) :
    u * 10 ^ g < 10 ^ n * p := by
  refine Nat.lt_of_mul_lt_mul_right (a := 10 ^ c) ?_
  calc u * 10 ^ g * 10 ^ c = u * 10 ^ c * 10 ^ g := by ac_rfl
    _ < 10 ^ k * p * 10 ^ g := Nat.mul_lt_mul_of_pos_right h (Nat.pow_pos (by decide))
    _ = 10 ^ (k + g) * p := by rw [pow_add]; ac_rfl
    _ = 10 ^ n * p * 10 ^ c := by rw [hk, pow_add]; ac_rfl

/-- The leading digit stands where the leading exponent says: the number is below the next power of
ten. -/
theorem units_mul_lt (x : Binary64) :
    ∃ k : Nat, x.leadingExponent = k - 351 ∧ x.units * 10 ^ 350 < 10 ^ k * 2 ^ 1074 := by
  refine ⟨(Decimal.digits (x.units * 10 ^ 350 / 2 ^ 1074)).length, rfl, ?_⟩
  have h := Decimal.lt_pow_length_digits (x.units * 10 ^ 350 / 2 ^ 1074)
  exact (Nat.div_lt_iff_lt_mul (Nat.two_pow_pos 1074)).mp h

/-- On the grid with `n` digits a number has at most `n` digits in front of the point. -/
theorem onGrid_lt (x : Binary64) (n : Nat) (g : Int) (hg : x.leadingExponent + 1 - n = g) :
    (x.onGrid g).1 / (x.onGrid g).2 < 10 ^ n := by
  obtain ⟨k, hk, hlt⟩ := units_mul_lt x
  rw [hk] at hg
  cases g with
  | ofNat g =>
    have hkg : k = n + g + 350 := by
      rw [Int.ofNat_eq_natCast] at hg
      omega
    have hden : 0 < 2 ^ 1074 * 10 ^ g :=
      Nat.mul_pos (Nat.two_pow_pos 1074) (Nat.pow_pos (n := g) (by decide))
    exact (Nat.div_lt_iff_lt_mul hden).mpr (lt_of_shift_up hkg hlt)
  | negSucc g =>
    have hkg : k + (g + 1) = n + 350 := by omega
    exact (Nat.div_lt_iff_lt_mul (Nat.two_pow_pos 1074)).mpr (lt_of_shift_down hkg hlt)

/-! ## What a candidate is -/

/-- Whichever neighbour is chosen has passed the test of reading back. -/
theorem neighbour?_eq_some {tie : TieRule} {x : Binary64} {g : Int} {num den : Nat}
    {d : DecimalNumber} (h : neighbour? tie x g num den = some d) :
    d.toBinary64 = x ∧ d.digits ≤ num / den + 1 := by
  have hbelow := DecimalNumber.digits_strip_le ⟨num / den, g⟩
  have habove := DecimalNumber.digits_strip_le ⟨num / den + 1, g⟩
  simp only [neighbour?] at h
  split at h
  · cases h
  · next hb _ =>
    cases h
    exact ⟨by simpa using hb, by simp only at hbelow; omega⟩
  · next _ ha =>
    cases h
    exact ⟨by simpa using ha, habove⟩
  · next hb ha =>
    have hd : d = DecimalNumber.strip ⟨num / den, g⟩ ∨
        d = DecimalNumber.strip ⟨num / den + 1, g⟩ := by
      cases tie <;> grind
    rcases hd with rfl | rfl
    · exact ⟨by simpa using hb, by simp only at hbelow; omega⟩
    · exact ⟨by simpa using ha, habove⟩

/-- A candidate with `n` digits reads back, and its digits are at most those of `10 ^ n`. -/
theorem candidate?_eq_some {tie : TieRule} {x : Binary64} {n : Nat} {d : DecimalNumber}
    (h : candidate? tie x n = some d) : d.toBinary64 = x ∧ d.digits ≤ 10 ^ n := by
  have hd := neighbour?_eq_some h
  exact ⟨hd.1, hd.2.trans (onGrid_lt x n _ rfl)⟩

/-! ## What is shown -/

theorem abs_of_units_eq_zero {x : Binary64} (h : x.units = 0) : x.abs = zero := by
  have hsig : x.significand = 0 := by
    rcases Nat.mul_eq_zero.mp h with h0 | h0
    · exact h0
    · exact absurd h0 (Nat.ne_of_gt (Nat.two_pow_pos _))
  have hplace : x.lastPlace = 0 := by
    rcases lastPlace_eq_zero_or_le x with h0 | h0
    · exact h0
    · omega
  have hbits : x.magnitudeBits = 0 := by rw [magnitudeBits_eq, hsig, hplace]
  simp only [abs, hbits]
  rfl

/-- The shortest decimal of a number is zero, one of the candidates, or the exact decimal. -/
theorem shortest_cases (tie : TieRule) (x : Binary64) :
    (x.units = 0 ∧ x.shortest tie = ⟨0, 0⟩) ∨
      (∃ n, n < 17 ∧ candidate? tie x.abs (n + 1) = some (x.shortest tie)) ∨
      x.shortest tie = x.exactDecimal := by
  unfold shortest
  split
  · next h => exact Or.inl ⟨h, rfl⟩
  · next h =>
    right
    cases hs : (List.range 17).findSome? fun n => candidate? tie x.abs (n + 1) with
    | none => exact Or.inr rfl
    | some d =>
      obtain ⟨n, hn, hd⟩ := List.exists_of_findSome?_eq_some hs
      exact Or.inl ⟨n, List.mem_range.mp hn, hd⟩

/-- The shortest decimal of a finite number reads back. -/
theorem toBinary64_shortest (tie : TieRule) (x : Binary64) (hx : x.isFinite) :
    (x.shortest tie).toBinary64 = x.abs := by
  rcases shortest_cases tie x with ⟨h0, hs⟩ | ⟨n, -, hs⟩ | hs
  · rw [hs, abs_of_units_eq_zero h0]
    rfl
  · exact (candidate?_eq_some hs).1
  · rw [hs, toBinary64_exactDecimal x hx]

theorem five_pow_le_two_pow (k : Nat) : 5 ^ (3 * k) ≤ 2 ^ (7 * k) := by
  rw [pow_mul, pow_mul]
  exact Nat.pow_le_pow_left (by decide) k

theorem digits_exactDecimal_lt (x : Binary64) (hx : x.isFinite) :
    x.exactDecimal.digits < 10 ^ 768 := by
  have hsig := significand_lt x
  have hplace := lastPlace_lt x hx
  unfold exactDecimal
  split
  · calc x.significand * 5 ^ (1074 - x.lastPlace)
        ≤ x.significand * 5 ^ (3 * 102 + 768) :=
          Nat.mul_le_mul_left _ (Nat.pow_le_pow_right (by decide) (by omega))
      _ < 2 ^ 53 * 5 ^ (3 * 102 + 768) :=
          Nat.mul_lt_mul_of_pos_right hsig (Nat.pow_pos (n := 3 * 102 + 768) (by decide))
      _ = 2 ^ 53 * 5 ^ (3 * 102) * 5 ^ 768 := by rw [pow_add, ← Nat.mul_assoc]
      _ ≤ 2 ^ 53 * 2 ^ (7 * 102) * 5 ^ 768 :=
          Nat.mul_le_mul_right _ (Nat.mul_le_mul_left _ (five_pow_le_two_pow 102))
      _ ≤ 2 ^ 768 * 5 ^ 768 := by
          rw [← pow_add]
          exact Nat.mul_le_mul_right _ (Nat.pow_le_pow_right (by decide) (by omega))
      _ = 10 ^ 768 := (Nat.mul_pow 2 5 768).symm
  · calc x.significand * 2 ^ (x.lastPlace - 1074)
        ≤ x.significand * 2 ^ 972 :=
          Nat.mul_le_mul_left _ (Nat.pow_le_pow_right (by decide) (by omega))
      _ < 2 ^ 53 * 2 ^ 972 := Nat.mul_lt_mul_of_pos_right hsig (Nat.two_pow_pos _)
      _ ≤ 2 ^ (3 * 768) := by
          rw [← pow_add]
          exact Nat.pow_le_pow_right (by decide) (by omega)
      _ ≤ 10 ^ 768 := two_pow_le_ten_pow 768

theorem digits_shortest_lt (tie : TieRule) (x : Binary64) (hx : x.isFinite) :
    (x.shortest tie).digits < 10 ^ 768 := by
  rcases shortest_cases tie x with ⟨-, hs⟩ | ⟨n, hn, hs⟩ | hs
  · rw [hs]
    exact Nat.pow_pos (n := 768) (by decide)
  · exact (candidate?_eq_some hs).2.trans_lt (Nat.pow_lt_pow_right (by decide) (by omega))
  · rw [hs]
    exact digits_exactDecimal_lt x hx

end Binary64
end Metering
