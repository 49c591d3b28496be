import Mathlib.Tactic.Linarith
import Metering.Binary64.Text
import Metering.Proofs.Binary64.Range

/-!
# Proofs: rounding is to the nearest

A rounded ratio misses the exact one by at most half of its last bit, and the last bit counts at
most one part in `2 ^ 52` of it. Whole numbers below `2 ^ 53` are not rounded at all, so the
quotient of two of them is rounded once.
-/

namespace Metering

/-- A whole number is nearest to a quotient if it misses it by at most one half. -/
theorem roundDiv_near (num : Nat) {den : Nat} (hden : 0 < den) :
    2 * (den * roundDiv num den) ≤ 2 * num + den ∧ 2 * num ≤ 2 * (den * roundDiv num den) + den := by
  have hsplit := Nat.div_add_mod num den
  have hr := Nat.mod_lt num hden
  have hnext : den * (num / den + 1) = den * (num / den) + den := Nat.mul_succ _ _
  simp only [roundDiv]
  rcases Nat.mod_two_eq_zero_or_one (num / den) with heven | hodd
  · have htie : num / den + num / den % 2 = num / den := by omega
    rw [htie]
    split_ifs <;> omega
  · have htie : num / den + num / den % 2 = num / den + 1 := by omega
    rw [htie]
    split_ifs <;> omega

theorem roundDiv_le {num den m : Nat} (hden : 0 < den) (h : num ≤ m * den) :
    roundDiv num den ≤ m := by
  have hnear := (roundDiv_near num hden).1
  by_contra hlt
  have := Nat.mul_le_mul_left den (Nat.not_le.mp hlt)
  have hsucc : den * (m + 1) = m * den + den := by ring
  rw [Nat.succ_eq_add_one] at this
  omega

theorem le_roundDiv {num den m : Nat} (hden : 0 < den) (h : m * den ≤ num) :
    m ≤ roundDiv num den := by
  have hnear := (roundDiv_near num hden).2
  by_contra hlt
  have hsucc := Nat.mul_le_mul_left den (Nat.not_le.mp hlt)
  have hsplit : den * (roundDiv num den).succ = den * roundDiv num den + den := Nat.mul_succ _ _
  have hcomm := Nat.mul_comm den m
  omega

namespace Binary64

/-! ## The size of a rounded ratio -/

/-- The bits of a place and a multiple of it show that multiple of the place, also where the
multiple carries into the next place. -/
theorem units_of_bits {x : Binary64} {s r : Nat} (hbits : x.magnitudeBits = s * 2 ^ 52 + r)
    (hr : r ≤ 2 ^ 53) (hs : s = 0 ∨ 2 ^ 52 ≤ r) : x.units = r * 2 ^ s := by
  have hplace : x.lastPlace = (s * 2 ^ 52 + r) / 2 ^ 52 - 1 := by rw [lastPlace, hbits]
  have hparts := magnitudeBits_eq x
  have hsig := significand_lt x
  have hfull := lastPlace_eq_zero_or_le x
  rw [hbits] at hparts
  rw [units]
  rcases hr.lt_or_eq with hlt | rfl
  · obtain rfl : x.lastPlace = s := by omega
    obtain rfl : x.significand = r := by omega
    rfl
  · have hs' : x.lastPlace = s + 1 := by omega
    have hr' : x.significand = 2 ^ 52 := by omega
    rw [hs', hr', pow_succ]
    ring

theorem ofRatio_eq (num den : Nat) :
    ofRatio num den =
      let n := num * 2 ^ 1074
      let b := placeOf n den * 2 ^ 52 + roundDiv n (den * 2 ^ placeOf n den)
      if b < infinityBits then ⟨UInt64.ofNat b⟩ else infinity := rfl

section

variable {num den : Nat} (hden : 0 < den) (hfinite : (ofRatio num den).isFinite = true)
include hfinite

theorem toNat_bits_ofRatio :
    (ofRatio num den).bits.toNat =
        placeOf (num * 2 ^ 1074) den * 2 ^ 52 +
          roundDiv (num * 2 ^ 1074) (den * 2 ^ placeOf (num * 2 ^ 1074) den) ∧
      (ofRatio num den).bits.toNat < infinityBits := by
  rw [ofRatio_eq] at hfinite ⊢
  dsimp only at hfinite ⊢
  have hlt := (isFinite_bits_iff _).mp hfinite
  rw [if_pos hlt]
  have hword := hlt
  simp only [infinityBits] at hword
  have htoNat := UInt64.toNat_ofNat_of_lt' (hword.trans (by decide))
  exact ⟨htoNat, htoNat.trans_lt hlt⟩

theorem negative_ofRatio : (ofRatio num den).negative = false := by
  have hlt := (toNat_bits_ofRatio hfinite).2
  simp only [infinityBits] at hlt
  simp only [negative, decide_eq_false_iff_not]
  omega

include hden

theorem units_ofRatio :
    (ofRatio num den).units =
      roundDiv (num * 2 ^ 1074) (den * 2 ^ placeOf (num * 2 ^ 1074) den) *
        2 ^ placeOf (num * 2 ^ 1074) den := by
  obtain ⟨hbits, hlt⟩ := toNat_bits_ofRatio hfinite
  have hstep : 0 < den * 2 ^ placeOf (num * 2 ^ 1074) den := Nat.mul_pos hden (Nat.two_pow_pos _)
  simp only [infinityBits] at hlt
  refine units_of_bits ?_ (roundDiv_le hstep (lt_mul_pow_placeOf hden).le) ?_
  · rw [magnitudeBits, ← hbits]
    omega
  · by_cases h : placeOf (num * 2 ^ 1074) den = 0
    · exact Or.inl h
    · exact Or.inr (le_roundDiv hstep (mul_pow_placeOf_le hden h))

end

/-- A ratio that is not among the subnormal numbers is missed by at most one part in `2 ^ 53`. -/
theorem units_ofRatio_near {num den : Nat} (hden : 0 < den) (hnormal : 2 ^ 53 * den ≤ 2 ^ 1074)
    (hfinite : (ofRatio num den).isFinite = true) :
    2 ^ 53 * (den * (ofRatio num den).units) ≤ 2 ^ 53 * (num * 2 ^ 1074) + num * 2 ^ 1074 ∧
      2 ^ 53 * (num * 2 ^ 1074) ≤
        2 ^ 53 * (den * (ofRatio num den).units) + num * 2 ^ 1074 := by
  have hstep : 0 < den * 2 ^ placeOf (num * 2 ^ 1074) den := Nat.mul_pos hden (Nat.two_pow_pos _)
  have hnear := roundDiv_near (num * 2 ^ 1074) hstep
  have hunits := units_ofRatio hden hfinite
  have hlast : num = 0 ∨ 2 ^ 52 * (den * 2 ^ placeOf (num * 2 ^ 1074) den) ≤ num * 2 ^ 1074 := by
    by_cases hplace : placeOf (num * 2 ^ 1074) den = 0
    · rcases Nat.eq_zero_or_pos num with h0 | hpos
      · exact Or.inl h0
      · have hnum : 2 ^ 1074 ≤ num * 2 ^ 1074 := Nat.le_mul_of_pos_left _ hpos
        rw [hplace, pow_zero, Nat.mul_one]
        exact Or.inr (by omega)
    · exact Or.inr (mul_pow_placeOf_le hden hplace)
  have hsize : den * (ofRatio num den).units =
      den * 2 ^ placeOf (num * 2 ^ 1074) den *
        roundDiv (num * 2 ^ 1074) (den * 2 ^ placeOf (num * 2 ^ 1074) den) := by
    rw [hunits]
    ring
  rw [hsize]
  rcases hlast with rfl | hlast
  · have hzero : roundDiv (0 * 2 ^ 1074) (den * 2 ^ placeOf (0 * 2 ^ 1074) den) = 0 :=
      Nat.le_zero.mp (roundDiv_le hstep (by rw [Nat.zero_mul]; exact Nat.zero_le _))
    rw [hzero]
    omega
  · omega

/-- No ratio to a whole number of this size, zero apart, is among the subnormal numbers. -/
theorem two_pow_mul_le {b : Nat} (hb : b ≤ 2 ^ 53) : 2 ^ 53 * b ≤ 2 ^ 1074 := by
  calc 2 ^ 53 * b ≤ 2 ^ 53 * 2 ^ 53 := Nat.mul_le_mul_left _ hb
    _ = 2 ^ 106 := (pow_add 2 53 53).symm
    _ ≤ 2 ^ 1074 := Nat.pow_le_pow_right (by decide) (by decide)

/-- A whole number with at most fifty-three bits is not rounded. -/
theorem units_ofNat {n : Nat} (hn : n < 2 ^ 53) : (ofNat n).units = n * 2 ^ 1074 := by
  have hfinite : (ofNat n).isFinite = true := isFinite_ofNat (hn.trans (by decide))
  have hplace : placeOf (n * 2 ^ 1074) 1 ≤ 1074 := by
    by_contra h
    have hstep := mul_pow_placeOf_le (n := n * 2 ^ 1074) Nat.one_pos (by omega)
    have hpow : 2 ^ (1074 + 1) ≤ 2 ^ placeOf (n * 2 ^ 1074) 1 :=
      Nat.pow_le_pow_right (by decide) (Nat.not_le.mp h)
    have hlt : n * 2 ^ 1074 < 2 ^ 53 * 2 ^ 1074 :=
      Nat.mul_lt_mul_of_pos_right hn (Nat.two_pow_pos 1074)
    rw [pow_succ] at hpow
    rw [Nat.one_mul] at hstep
    omega
  have hsplit : n * 2 ^ 1074 =
      n * 2 ^ (1074 - placeOf (n * 2 ^ 1074) 1) * (1 * 2 ^ placeOf (n * 2 ^ 1074) 1) := by
    rw [Nat.one_mul, Nat.mul_assoc, ← pow_add, Nat.sub_add_cancel hplace]
  have hround := roundDiv_mul_self (n * 2 ^ (1074 - placeOf (n * 2 ^ 1074) 1))
    (1 * 2 ^ placeOf (n * 2 ^ 1074) 1) (by positivity)
  rw [← hsplit] at hround
  rw [ofNat, units_ofRatio Nat.one_pos hfinite, hround]
  conv_rhs => rw [hsplit]
  rw [Nat.one_mul]

/-- The quotient of two such numbers is their ratio, rounded once. -/
theorem quotient_ofNat {a b : Nat} (ha : a < 2 ^ 53) (hb : b < 2 ^ 53) :
    (ofNat a).quotient (ofNat b) = ofRatio a b := by
  rw [quotient, units_ofNat ha, units_ofNat hb, ofRatio_mul_right _ _ _ (Nat.two_pow_pos 1074)]

theorem isFinite_quotient_ofNat {a b : Nat} (ha : a < 2 ^ 65) (hpos : 0 < b) (hb : b < 2 ^ 53) :
    ((ofNat a).quotient (ofNat b)).isFinite = true := by
  have hnear := (units_ofRatio_near Nat.one_pos (two_pow_mul_le (by decide)) (isFinite_ofNat ha)).1
  have hunits : (ofNat a).units ≤ 2 * (a * 2 ^ 1074) := by
    rw [Nat.one_mul] at hnear
    rw [ofNat]
    omega
  have hover : 2 ^ 66 ≤ overflow := two_pow_le_overflow (by decide)
  rw [quotient, units_ofNat hb]
  refine (isFinite_ofRatio_iff (Nat.mul_pos hpos (Nat.two_pow_pos 1074))).mpr ?_
  calc (ofNat a).units ≤ 2 * a * 2 ^ 1074 := by rwa [Nat.mul_assoc]
    _ < overflow * 2 ^ 1074 := Nat.mul_lt_mul_of_pos_right (by omega) (Nat.two_pow_pos 1074)
    _ ≤ overflow * (b * 2 ^ 1074) := Nat.mul_le_mul_left _ (Nat.le_mul_of_pos_left _ hpos)

/-! ## Tenths -/

/-- Two roundings in a row miss a ratio by at most one half where the ratio is so small that the
error of the first does not count. -/
theorem near_of_near {P M u t n den : Nat} (hP : 0 < P) (hn : 20 * n < M)
    (hfirst : M * (den * u) ≤ M * (n * P) + n * P ∧ M * (n * P) ≤ M * (den * u) + n * P)
    (hsecond : 2 * (P * t) ≤ 2 * (u * 10) + P ∧ 2 * (u * 10) ≤ 2 * (P * t) + P) :
    2 * (den * t) ≤ 20 * n + den ∧ 20 * n ≤ 2 * (den * t) + den := by
  have hbound := Nat.mul_le_mul_right P (Nat.succ_le_of_lt hn)
  constructor
  · by_contra h
    have hscaled := Nat.mul_le_mul_left (M * P) (Nat.succ_le_of_lt (Nat.not_le.mp h))
    have hsecond' := Nat.mul_le_mul_left (M * den) hsecond.1
    linarith [hfirst.1]
  · by_contra h
    have hscaled := Nat.mul_le_mul_left (M * P) (Nat.succ_le_of_lt (Nat.not_le.mp h))
    have hsecond' := Nat.mul_le_mul_left (M * den) hsecond.2
    linarith [hfirst.2]

/-- The quotient of two whole numbers is shown by the nearest tenth. -/
theorem tenths_quotient_near {a b : Nat} (ha : 20 * a < 2 ^ 53) (hpos : 0 < b) (hb : b < 2 ^ 53) :
    2 * (b * ((ofNat a).quotient (ofNat b)).tenths) ≤ 20 * a + b ∧
      20 * a ≤ 2 * (b * ((ofNat a).quotient (ofNat b)).tenths) + b := by
  have hfinite := isFinite_quotient_ofNat (a := a) (by omega) hpos hb
  rw [quotient_ofNat (by omega) hb] at hfinite ⊢
  exact near_of_near (Nat.two_pow_pos 1074) ha (units_ofRatio_near hpos (two_pow_mul_le hb.le) hfinite)
    (roundDiv_near _ (Nat.two_pow_pos 1074))

end Binary64
end Metering
