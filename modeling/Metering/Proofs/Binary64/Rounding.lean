import Mathlib.Tactic.Ring
import Metering.Binary64.Shortest

/-!
# Proofs: rounding to binary64

Rounding depends on the ratio alone and not on how it is written, so a decimal number may be moved
by powers of ten before it is rounded. A ratio that is a finite number is rounded to that number:
its significand and the place of its last bit are found again.
-/

namespace Metering

/-! ## Rounding a quotient -/

theorem roundDiv_mul_right (num den k : Nat) (hk : 0 < k) :
    roundDiv (num * k) (den * k) = roundDiv num den := by
  have hq : num * k / (den * k) = num / den := Nat.mul_div_mul_right _ _ hk
  have hr : num * k % (den * k) = num % den * k := Nat.mul_mod_mul_right _ _ _
  have hlow : 2 * (num % den * k) < den * k ↔ 2 * (num % den) < den := by
    rw [← Nat.mul_assoc]
    exact Nat.mul_lt_mul_right hk
  have hhigh : den * k < 2 * (num % den * k) ↔ den < 2 * (num % den) := by
    rw [← Nat.mul_assoc]
    exact Nat.mul_lt_mul_right hk
  simp only [roundDiv, hq, hr, hlow, hhigh]

theorem roundDiv_mul_self (q den : Nat) (hden : 0 < den) : roundDiv (q * den) den = q := by
  have hq : q * den / den = q := Nat.mul_div_cancel _ hden
  have hr : q * den % den = 0 := Nat.mul_mod_left _ _
  simp only [roundDiv, hq, hr]
  rw [if_pos (by omega)]

theorem roundDiv_eq_zero (num den : Nat) (h : 2 * num < den) : roundDiv num den = 0 := by
  have hq : num / den = 0 := Nat.div_eq_of_lt (by omega)
  have hr : num % den = num := Nat.mod_eq_of_lt (by omega)
  simp only [roundDiv, hq, hr]
  rw [if_pos h]

namespace Binary64

/-! ## Rounding a ratio -/

theorem ofRatio_mul_right (num den k : Nat) (hk : 0 < k) :
    ofRatio (num * k) (den * k) = ofRatio num den := by
  have hn : num * k * 2 ^ 1074 = num * 2 ^ 1074 * k := Nat.mul_right_comm _ _ _
  have hd (s : Nat) : den * k * 2 ^ s = den * 2 ^ s * k := Nat.mul_right_comm _ _ _
  simp only [ofRatio, hn, hd, Nat.mul_div_mul_right _ _ hk, roundDiv_mul_right _ _ _ hk]

theorem ofRatio_congr (a b c d : Nat) (hb : 0 < b) (hd : 0 < d) (h : a * d = c * b) :
    ofRatio a b = ofRatio c d := by
  calc ofRatio a b = ofRatio (a * d) (b * d) := (ofRatio_mul_right a b d hd).symm
    _ = ofRatio (c * b) (d * b) := by rw [h, Nat.mul_comm b d]
    _ = ofRatio c d := ofRatio_mul_right c d b hb

/-! ## The parts of a finite number -/

theorem magnitudeBits_abs (x : Binary64) : x.abs.magnitudeBits = x.magnitudeBits := by
  have h : x.magnitudeBits < 2 ^ 63 := Nat.mod_lt _ (Nat.two_pow_pos 63)
  simp only [abs, magnitudeBits, UInt64.toNat_ofNat'] at h ⊢
  omega

@[simp] theorem isFinite_abs (x : Binary64) : x.abs.isFinite = x.isFinite := by
  simp only [isFinite, magnitudeBits_abs]

theorem signed_abs (x : Binary64) : (if x.negative then x.abs.neg else x.abs) = x := by
  obtain ⟨bits⟩ := x
  have hbits := bits.toNat_lt
  simp only [negative, abs, neg, magnitudeBits, decide_eq_true_eq]
  split
  · rw [Binary64.mk.injEq, ← UInt64.toNat_inj, UInt64.toNat_add, UInt64.toNat_ofNat']
    simp only [UInt64.reduceToNat]
    omega
  · rw [Binary64.mk.injEq, ← UInt64.toNat_inj, UInt64.toNat_ofNat']
    omega

theorem significand_lt (x : Binary64) : x.significand < 2 ^ 53 := by
  have hf : x.magnitudeBits % 2 ^ 52 < 2 ^ 52 := Nat.mod_lt _ (by decide)
  simp only [significand]
  split <;> omega

/-- The bits of a number are its parts, one above the other. -/
theorem magnitudeBits_eq (x : Binary64) :
    x.magnitudeBits = x.lastPlace * 2 ^ 52 + x.significand := by
  have h := Nat.div_add_mod x.magnitudeBits (2 ^ 52)
  simp only [lastPlace, significand]
  split <;> omega

/-- Only a number whose last bit counts one unit has fewer than fifty-three digits. -/
theorem lastPlace_eq_zero_or_le (x : Binary64) : x.lastPlace = 0 ∨ 2 ^ 52 ≤ x.significand := by
  simp only [lastPlace, significand]
  split <;> omega

/-- The place of the last bit is found from the size. -/
theorem log2_units (x : Binary64) : x.units.log2 - 52 = x.lastPlace := by
  have hlt := significand_lt x
  rcases lastPlace_eq_zero_or_le x with h | h
  · have hu : x.units < 2 ^ 53 := by simpa [units, h] using hlt
    by_cases h0 : x.units = 0
    · rw [h0, h]
      rfl
    · have := (Nat.log2_lt h0).mpr hu
      omega
  · have h0 : x.units ≠ 0 := by
      have : 0 < x.significand := by omega
      exact Nat.ne_of_gt (Nat.mul_pos this (Nat.two_pow_pos _))
    have hlog : x.units.log2 = 52 + x.lastPlace := by
      rw [Nat.log2_eq_iff h0]
      refine ⟨?_, ?_⟩
      · rw [pow_add]
        exact Nat.mul_le_mul_right _ h
      · have he : 2 ^ (52 + x.lastPlace + 1) = 2 ^ 53 * 2 ^ x.lastPlace := by
          rw [← pow_add]
          congr 1
          omega
        rw [he]
        exact Nat.mul_lt_mul_of_pos_right hlt (Nat.two_pow_pos _)
    omega

theorem magnitudeBits_lt_of_isFinite (x : Binary64) (hx : x.isFinite) :
    x.magnitudeBits < infinityBits := by
  simpa [isFinite] using hx

theorem lastPlace_lt (x : Binary64) (hx : x.isFinite) : x.lastPlace < 2046 := by
  have hlt := magnitudeBits_lt_of_isFinite x hx
  have hbits := magnitudeBits_eq x
  simp only [infinityBits] at hlt
  rcases lastPlace_eq_zero_or_le x with h0 | h0 <;> omega

/-! ## Exact ratios -/

/-- A ratio that is a finite number is rounded to that number. -/
theorem ofRatio_exact (x : Binary64) (hx : x.isFinite) (num den : Nat) (hden : 0 < den)
    (h : num * 2 ^ 1074 = x.units * den) : ofRatio num den = x.abs := by
  have hlt := magnitudeBits_lt_of_isFinite x hx
  have hdiv : x.units * den / den = x.units := Nat.mul_div_cancel _ hden
  have hplace : x.units.log2 - 52 = x.lastPlace := log2_units x
  have hround : roundDiv (x.units * den) (den * 2 ^ x.lastPlace) = x.significand := by
    have hu : x.units * den = x.significand * (den * 2 ^ x.lastPlace) := by
      rw [units]
      ring
    rw [hu]
    exact roundDiv_mul_self _ _ (Nat.mul_pos hden (Nat.two_pow_pos _))
  simp only [ofRatio, h, hdiv, hplace, hround, ← magnitudeBits_eq, if_pos hlt, abs]

/-! ## Decimal numbers -/

theorem pow_add_le_mul_pow {n a : Nat} (h : 2 ^ a ≤ n) (b : Nat) : 2 ^ (a + b) ≤ n * 2 ^ b := by
  rw [pow_add]
  exact Nat.mul_le_mul_right _ h

theorem two_mul_lt_pow_log2 (n b : Nat) : 2 * (n * 2 ^ b) < 2 ^ (n.log2 + b + 2) := by
  have hn : n * 2 ^ b < 2 ^ (n.log2 + 1) * 2 ^ b :=
    Nat.mul_lt_mul_of_pos_right Nat.lt_log2_self (Nat.two_pow_pos _)
  have he : 2 ^ (n.log2 + b + 2) = 2 * (2 ^ (n.log2 + 1) * 2 ^ b) := by ring
  omega

/-- What is far above the range is rounded to infinity. -/
theorem ofRatio_large (n : Nat) (h : 2 ^ 1025 ≤ n) : ofRatio n 1 = infinity := by
  have hbig : 2 ^ (1025 + 1074) ≤ n * 2 ^ 1074 := pow_add_le_mul_pow h 1074
  have h0 : n * 2 ^ 1074 ≠ 0 := Nat.ne_of_gt (Nat.lt_of_lt_of_le (Nat.two_pow_pos _) hbig)
  have hlog : 1025 + 1074 ≤ (n * 2 ^ 1074).log2 := (Nat.le_log2 h0).mpr hbig
  have hplace : 2047 * 2 ^ 52 ≤ ((n * 2 ^ 1074).log2 - 52) * 2 ^ 52 :=
    Nat.mul_le_mul_right _ (by omega)
  simp only [ofRatio, Nat.div_one, infinityBits]
  rw [if_neg (by omega)]

/-- What is far below the range is rounded to zero. -/
theorem ofRatio_small (num den : Nat) (h : 2 * (num * 2 ^ 1074) < den) :
    ofRatio num den = zero := by
  have hdiv : num * 2 ^ 1074 / den = 0 := Nat.div_eq_of_lt (by omega)
  have hround : roundDiv (num * 2 ^ 1074) (den * 2 ^ 0) = 0 :=
    roundDiv_eq_zero _ _ (by rw [pow_zero, Nat.mul_one]; exact h)
  have hlog : Nat.log2 0 - 52 = 0 := rfl
  simp only [ofRatio, hdiv, hlog, hround]
  rfl

theorem two_pow_le_ten_pow (k : Nat) : 2 ^ (3 * k) ≤ 10 ^ k := by
  rw [pow_mul]
  exact Nat.pow_le_pow_left (by decide) k

/-- A decimal number is rounded as the ratio that it is: the early answers for numbers out of range
are the right ones. -/
theorem ofDecimal_eq_ofRatio (digits : Nat) (exponent : Int) :
    ofDecimal digits exponent =
      ofRatio (digits * 10 ^ exponent.toNat) (10 ^ (-exponent).toNat) := by
  cases exponent with
  | ofNat e =>
    have hneg : (-Int.ofNat e).toNat = 0 := by simp
    have hpos : (Int.ofNat e).toNat = e := rfl
    simp only [ofDecimal, hneg, hpos, pow_zero]
    split
    · next h0 =>
      rw [h0, Nat.zero_mul]
      exact (ofRatio_small 0 1 (by omega)).symm
    · next h0 =>
      split
      · next he =>
        refine (ofRatio_large _ ?_).symm
        calc 2 ^ 1025 ≤ 2 ^ (3 * e) := Nat.pow_le_pow_right (by decide) (by omega)
          _ ≤ 10 ^ e := two_pow_le_ten_pow e
          _ ≤ digits * 10 ^ e := Nat.le_mul_of_pos_left _ (Nat.pos_of_ne_zero h0)
      · rfl
  | negSucc k =>
    have hneg : (-Int.negSucc k).toNat = k + 1 := rfl
    have hpos : (Int.negSucc k).toNat = 0 := rfl
    simp only [ofDecimal, hneg, hpos, pow_zero, Nat.mul_one]
    split
    · next hk =>
      refine (ofRatio_small _ _ ?_).symm
      calc 2 * (digits * 2 ^ 1074) < 2 ^ (digits.log2 + 1074 + 2) := two_mul_lt_pow_log2 _ _
        _ ≤ 2 ^ (3 * (k + 1)) := Nat.pow_le_pow_right (by decide) (by omega)
        _ ≤ 10 ^ (k + 1) := two_pow_le_ten_pow _
    · rfl

end Binary64

/-- Zeros at the end of the digits may be moved into the power of ten. -/
theorem DecimalNumber.toBinary64_mul_pow (n k : Nat) (e : Int) :
    DecimalNumber.toBinary64 ⟨n * 10 ^ k, e⟩ = DecimalNumber.toBinary64 ⟨n, e + k⟩ := by
  simp only [DecimalNumber.toBinary64, Binary64.ofDecimal_eq_ofRatio]
  refine Binary64.ofRatio_congr _ _ _ _ (Nat.pow_pos (by decide)) (Nat.pow_pos (by decide)) ?_
  have he : k + e.toNat + (-(e + k)).toNat = (e + k).toNat + (-e).toNat := by omega
  calc n * 10 ^ k * 10 ^ e.toNat * 10 ^ (-(e + k)).toNat
      = n * 10 ^ (k + e.toNat + (-(e + k)).toNat) := by rw [pow_add, pow_add]; ring
    _ = n * 10 ^ (e + k).toNat * 10 ^ (-e).toNat := by rw [he, pow_add]; ring

namespace Binary64

theorem toBinary64_exactDecimal (x : Binary64) (hx : x.isFinite) :
    x.exactDecimal.toBinary64 = x.abs := by
  unfold exactDecimal
  split
  · next h =>
    have hpos : ((x.lastPlace : Int) - 1074).toNat = 0 := by omega
    have hneg : (-((x.lastPlace : Int) - 1074)).toNat = 1074 - x.lastPlace := by omega
    simp only [DecimalNumber.toBinary64, ofDecimal_eq_ofRatio, hpos, hneg, pow_zero, Nat.mul_one]
    refine ofRatio_exact x hx _ _ (Nat.pow_pos (by decide)) ?_
    have hten : (10 : Nat) ^ (1074 - x.lastPlace) =
        5 ^ (1074 - x.lastPlace) * 2 ^ (1074 - x.lastPlace) := by rw [← Nat.mul_pow]
    have htwo : (2 : Nat) ^ 1074 = 2 ^ x.lastPlace * 2 ^ (1074 - x.lastPlace) := by
      rw [← pow_add]
      congr 1
      omega
    rw [hten, htwo, units]
    ring
  · next h =>
    simp only [DecimalNumber.toBinary64, ofDecimal_eq_ofRatio, Int.toNat_zero, Int.neg_zero,
      pow_zero, Nat.mul_one]
    refine ofRatio_exact x hx _ _ (by decide) ?_
    have htwo := Nat.pow_sub_mul_pow 2 (Nat.le_of_not_le h)
    rw [Nat.mul_one, units, Nat.mul_assoc, htwo]

end Binary64
end Metering
