import Mathlib.Algebra.Order.Field.Rat
import Mathlib.Tactic.Positivity
import Metering.Proofs.Binary64.Rounding

/-!
# Proofs: the range of binary64

A number is rounded to a finite one exactly if it lies below the midpoint between the largest finite
number and the next power of two. The midpoint itself is a tie, and of the two numbers the power of
two would be the even one.
-/

namespace Metering

/-- A bound that is even is reached from half a step below it. -/
theorem roundDiv_lt_iff {num den m : Nat} (hden : 0 < den) (hm : m % 2 = 0) :
    roundDiv num den < m ↔ 2 * num + den < 2 * (den * m) := by
  have hsplit := Nat.div_add_mod num den
  have hr := Nat.mod_lt num hden
  simp only [roundDiv]
  generalize num / den = q at *
  generalize num % den = r at *
  have hlt (h : q < m) : den * q + den ≤ den * m := Nat.mul_le_mul_left den h
  have hge (h : m ≤ q) : den * m ≤ den * q := Nat.mul_le_mul_left den h
  have hlt' (h : q + 1 < m) : den * q + den + den ≤ den * m := Nat.mul_le_mul_left den h
  have hge' (h : m ≤ q + 1) : den * m ≤ den * q + den := Nat.mul_le_mul_left den h
  split
  · by_cases h : q < m
    · have := hlt h
      omega
    · have := hge (by omega)
      omega
  split
  · by_cases h : q + 1 < m
    · have := hlt' h
      omega
    · have := hge' (by omega)
      omega
  · by_cases h : q + 1 < m
    · have := hlt' h
      omega
    · have := hge' (by omega)
      omega

namespace Binary64

/-! ## Ratios -/

section

variable {n den : Nat} (hden : 0 < den)

/-- The place of the last bit that is left of a ratio when it is rounded. -/
def placeOf (n den : Nat) : Nat := (n / den).log2 - 52

include hden

theorem lt_mul_pow_placeOf : n < 2 ^ 53 * (den * 2 ^ placeOf n den) := by
  have hlog : n / den < 2 ^ ((n / den).log2 + 1) := Nat.lt_log2_self
  have hle : 2 ^ ((n / den).log2 + 1) ≤ 2 ^ (53 + placeOf n den) := by
    refine Nat.pow_le_pow_right (by decide) ?_
    simp only [placeOf]
    omega
  have hn := (Nat.div_lt_iff_lt_mul hden).mp (hlog.trans_le hle)
  rw [pow_add, Nat.mul_assoc, Nat.mul_comm (2 ^ placeOf n den)] at hn
  exact hn

theorem mul_pow_placeOf_le (h : placeOf n den ≠ 0) :
    2 ^ 52 * (den * 2 ^ placeOf n den) ≤ n := by
  have hlog : (n / den).log2 = 52 + placeOf n den := by
    simp only [placeOf] at h ⊢
    omega
  have h0 : n / den ≠ 0 := by
    intro h0
    rw [placeOf, h0] at h
    exact h rfl
  have hle := Nat.log2_self_le h0
  rw [hlog, Nat.le_div_iff_mul_le hden, pow_add, Nat.mul_assoc,
    Nat.mul_comm (2 ^ placeOf n den)] at hle
  exact hle

/-- The bits of a rounded ratio stay below those of a power of two exactly if the ratio is below the
midpoint before this power. -/
theorem bits_lt_iff (j : Nat) :
    placeOf n den * 2 ^ 52 + roundDiv n (den * 2 ^ placeOf n den) < (j + 3) * 2 ^ 52 ↔
      n < (2 ^ 54 - 1) * (den * 2 ^ j) := by
  have hlt := lt_mul_pow_placeOf (n := n) hden
  have hle := mul_pow_placeOf_le (n := n) hden
  generalize placeOf n den = s at *
  have hD : 0 < den * 2 ^ s := Nat.mul_pos hden (Nat.two_pow_pos s)
  -- The place of the last bit decides, except where it is the last one below the power.
  rcases Nat.lt_trichotomy s (j + 1) with hs | hs | hs
  · have hE : den * 2 ^ s ≤ den * 2 ^ j :=
      Nat.mul_le_mul_left _ (Nat.pow_le_pow_right (by decide) (by omega))
    have hround := (@roundDiv_lt_iff n _ (2 ^ 53 + 2) hD (by decide)).mpr (by omega)
    refine iff_of_true ?_ ?_
    · omega
    · omega
  · have hE : den * 2 ^ s = 2 * (den * 2 ^ j) := by
      rw [hs, pow_succ]
      ring
    have hround := @roundDiv_lt_iff n _ (2 ^ 53) hD (by decide)
    rw [hE] at hround ⊢
    omega
  · have hE : 4 * (den * 2 ^ j) ≤ den * 2 ^ s := by
      calc 4 * (den * 2 ^ j) = den * 2 ^ (j + 2) := by rw [pow_add]; ring
        _ ≤ den * 2 ^ s := Nat.mul_le_mul_left _ (Nat.pow_le_pow_right (by decide) hs)
    have hfull := hle (by omega)
    have hround := @roundDiv_lt_iff n _ (2 ^ 52) hD (by decide)
    refine iff_of_false ?_ ?_
    · omega
    · omega

end

theorem isFinite_neg (x : Binary64) : x.neg.isFinite = x.isFinite := by
  have hmagnitude : x.neg.magnitudeBits = x.magnitudeBits := by
    have hbits := x.bits.toNat_lt
    simp only [magnitudeBits, neg, UInt64.toNat_add, UInt64.reduceToNat]
    omega
  simp only [isFinite, hmagnitude]

/-- The least number that is rounded to infinity: the midpoint between the largest finite number and
the next power of two. -/
def overflow : Nat := 2 ^ 1024 - 2 ^ 970

theorem overflow_eq : overflow = (2 ^ 54 - 1) * 2 ^ 970 := by
  rw [overflow, Nat.sub_mul, ← pow_add, Nat.one_mul]

theorem two_pow_le_overflow {k : Nat} (hk : k ≤ 970) : 2 ^ k ≤ overflow := by
  rw [overflow_eq]
  exact (Nat.pow_le_pow_right (by decide) hk).trans (Nat.le_mul_of_pos_left _ (by decide))

theorem isFinite_bits_iff (b : Nat) :
    (if b < infinityBits then (⟨UInt64.ofNat b⟩ : Binary64) else infinity).isFinite = true ↔
      b < infinityBits := by
  split
  · next h =>
    refine iff_of_true ?_ h
    simp only [isFinite, magnitudeBits, UInt64.toNat_ofNat', decide_eq_true_eq]
    simp only [infinityBits] at h ⊢
    omega
  · next h => exact iff_of_false (by decide) h

theorem mul_lt_mul_scaled_iff {a b c n u v : Nat} (hu : 0 < u) (h : c * v = a * u) :
    n * u < c * (b * v) ↔ n < a * b := by
  have hscale : c * (b * v) = a * b * u := by
    calc c * (b * v) = b * (c * v) := Nat.mul_left_comm c b v
      _ = b * (a * u) := by rw [h]
      _ = a * b * u := by ring
  rw [hscale, Nat.mul_lt_mul_right hu]

/-- A ratio is rounded to a finite number exactly if it is below the bound. -/
theorem isFinite_ofRatio_iff {num den : Nat} (hden : 0 < den) :
    (ofRatio num den).isFinite = true ↔ num < overflow * den := by
  have hunits : (2 ^ 54 - 1) * 2 ^ 2044 = overflow * 2 ^ 1074 := by
    rw [overflow_eq, Nat.mul_assoc, ← pow_add]
  rw [← mul_lt_mul_scaled_iff (Nat.two_pow_pos _) hunits, ← bits_lt_iff hden 2044]
  exact isFinite_bits_iff _

theorem isFinite_ofNat {n : Nat} (h : n < 2 ^ 65) : (ofNat n).isFinite = true := by
  rw [ofNat, isFinite_ofRatio_iff Nat.one_pos, Nat.mul_one]
  exact h.trans_le (two_pow_le_overflow (by decide))

end Binary64

/-! ## Decimal numbers -/

namespace DecimalNumber

/-- The exact value of a decimal number. -/
def value (d : DecimalNumber) : ℚ := d.digits * (10 : ℚ) ^ d.exponent

theorem isFinite_toBinary64 (d : DecimalNumber) :
    d.toBinary64.isFinite = true ↔
      d.digits * 10 ^ d.exponent.toNat < Binary64.overflow * 10 ^ (-d.exponent).toNat := by
  rw [toBinary64, Binary64.ofDecimal_eq_ofRatio]
  exact Binary64.isFinite_ofRatio_iff (Nat.pow_pos (by decide))

/-- A decimal number is rounded to a finite number exactly if its value is below the bound. -/
theorem isFinite_toBinary64_iff (d : DecimalNumber) :
    d.toBinary64.isFinite = true ↔ d.value < Binary64.overflow := by
  rw [isFinite_toBinary64, value]
  generalize Binary64.overflow = bound
  obtain ⟨digits, exponent⟩ := d
  cases exponent with
  | ofNat e =>
    have hneg : (-(e : Int)).toNat = 0 := by omega
    have hpos : (e : Int).toNat = e := rfl
    simp only [Int.ofNat_eq_natCast, hneg, hpos, zpow_natCast, pow_zero, Nat.mul_one]
    exact_mod_cast Iff.rfl
  | negSucc k =>
    have hneg : (-Int.negSucc k).toNat = k + 1 := rfl
    have hpos : (Int.negSucc k).toNat = 0 := rfl
    have hten : (0 : ℚ) < 10 ^ (k + 1) := by positivity
    simp only [hneg, hpos, zpow_negSucc, pow_zero, Nat.mul_one]
    rw [← div_eq_mul_inv, div_lt_iff₀ hten]
    exact_mod_cast Iff.rfl

end DecimalNumber
end Metering
