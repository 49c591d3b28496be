import Metering.Proofs.Binary64.Range
import Metering.Proofs.Json.Numeral

/-!
# Proofs: numerals in range

A numeral has a value exactly if its size is below the bound beyond which a number is rounded to
infinity. This holds for numerals of any length: the digits that are jammed into one lie behind the
last place of a decimal that is long enough for the bound to be a whole number in this place, so no
number is moved over the bound.
-/

namespace Metering.Json.Numeral

/-! ## Jammed digits -/

theorem leadingDigits_of_lt {d : DecimalNumber} (h : d.digits < jamLimit) :
    leadingDigits d = d := by
  fun_cases leadingDigits d with
  | case1 _ => rfl
  | case2 hd => exact absurd h hd

/-- As many digits are left as are read as they stand. The limit is not computed here. -/
theorem leadingDigits_eq {p : Nat} (hp : jamLimit = p * 10) (d : DecimalNumber)
    (h : jamLimit ≤ d.digits) :
    ∃ k : Nat, leadingDigits d = ⟨d.digits / 10 ^ (k + 1), d.exponent + (k + 1)⟩ ∧
      p ≤ d.digits / 10 ^ (k + 1) := by
  fun_induction leadingDigits d with
  | case1 d hd => exact absurd hd (Nat.not_lt.mpr h)
  | case2 d hd ih =>
    by_cases hrest : d.digits / 10 < jamLimit
    · refine ⟨0, ?_, ?_⟩
      · exact leadingDigits_of_lt hrest
      · rw [Nat.zero_add, pow_one, Nat.le_div_iff_mul_le (by decide), ← hp]
        exact h
    · obtain ⟨k, heq, hle⟩ := ih (Nat.le_of_not_lt hrest)
      have hdigits : d.digits / 10 / 10 ^ (k + 1) = d.digits / 10 ^ (k + 1 + 1) := by
        rw [Nat.div_div_eq_div_mul, ← pow_succ']
      have hexponent : d.exponent + 1 + ((k : Int) + 1) = d.exponent + ((k + 1 : Nat) + 1) := by
        omega
      exact ⟨k + 1, by rw [heq, ← hdigits, ← hexponent], by rw [← hdigits]; exact hle⟩

/-- Whether a number is below a bound depends on its leading digits alone, if these are beyond the
bound when they are read as a whole number. -/
theorem mul_pow_lt_iff {bound digits k : Nat} (e : Int) (h : bound ≤ digits / 10 ^ k) :
    digits * 10 ^ e.toNat < bound * 10 ^ (-e).toNat ↔
      e + k < 0 ∧ digits / 10 ^ k < bound * 10 ^ (-(e + k)).toNat := by
  have hk : 0 < 10 ^ k := Nat.pow_pos (by decide)
  by_cases hlow : e + k < 0
  · have hpos : e.toNat = 0 := by omega
    have hneg : (-e).toNat = (-(e + k)).toNat + k := by omega
    rw [hpos, hneg, pow_zero, Nat.mul_one, pow_add, ← Nat.mul_assoc, ← Nat.div_lt_iff_lt_mul hk]
    exact (and_iff_right hlow).symm
  · refine iff_of_false ?_ (fun h => hlow h.1)
    rw [Nat.not_lt]
    calc bound * 10 ^ (-e).toNat ≤ bound * 10 ^ k :=
          Nat.mul_le_mul_left _ (Nat.pow_le_pow_right (by decide) (by omega))
      _ ≤ digits := (Nat.le_div_iff_mul_le hk).mp h
      _ ≤ digits * 10 ^ e.toNat := Nat.le_mul_of_pos_right _ (Nat.pow_pos (by decide))

/-- Jamming moves no number over the bound. -/
theorem isFinite_jam (d : DecimalNumber) :
    (jam d).toBinary64.isFinite = d.toBinary64.isFinite := by
  by_cases hd : d.digits < jamLimit
  · rw [jam, if_pos hd]
  · have hlimit : ∃ p, jamLimit = p * 10 ∧ Binary64.overflow ≤ p :=
      ⟨10 ^ (plainDigits - 1), by decide +kernel, by decide +kernel⟩
    obtain ⟨p, hp, hbound⟩ := hlimit
    obtain ⟨k, heq, hle⟩ := leadingDigits_eq hp d (Nat.le_of_not_lt hd)
    generalize hleading : d.digits / 10 ^ (k + 1) = leading at heq hle
    have hjam : (jam d).toBinary64 =
        DecimalNumber.toBinary64 ⟨(leading * 10 + 1) * 10 ^ k, d.exponent⟩ := by
      have hexponent : d.exponent + ((k : Int) + 1) - 1 = d.exponent + k := by omega
      rw [DecimalNumber.toBinary64_mul_pow]
      simp only [jam, if_neg hd, heq, hexponent]
    have hsame : (leading * 10 + 1) * 10 ^ k / 10 ^ (k + 1) = leading := by
      rw [pow_succ', Nat.mul_div_mul_right _ _ (Nat.pow_pos (by decide))]
      omega
    rw [Bool.eq_iff_iff, hjam, DecimalNumber.isFinite_toBinary64,
      DecimalNumber.isFinite_toBinary64,
      mul_pow_lt_iff d.exponent (k := k + 1) (hbound.trans (hle.trans hleading.ge)),
      mul_pow_lt_iff d.exponent (k := k + 1) (hbound.trans (hle.trans hsame.ge)), hleading, hsame]

/-! ## Numbers -/

theorem decimal_of_isPlain {n : Numeral} (h : n.isPlain = true) : n.decimal = ⟨n.whole, 0⟩ := by
  simp only [isPlain, Bool.and_eq_true, List.isEmpty_iff, Option.isNone_iff_eq_none] at h
  simp [decimal, h.1, h.2, Decimal.ofDigits]

theorem of_integer? {n : Numeral} {i : Int} (h : n.integer? = some i) :
    n.isPlain = true ∧ i.natAbs = n.whole ∧ n.whole < 2 ^ 64 := by
  unfold integer? at h
  cases hplain : n.isPlain with
  | false =>
    rw [hplain] at h
    cases h
  | true =>
    rw [hplain] at h
    simp only [Bool.not_true, Bool.false_eq_true, if_false] at h
    refine ⟨rfl, ?_⟩
    split at h
    · split at h
      · cases h
        omega
      · cases h
    · split at h
      · cases h
        omega
      · cases h

/-- The value of a numeral is finite. -/
theorem isFinite_of_number? {n : Numeral} {x : Number} (h : n.number? = some x) :
    x.toBinary64.isFinite = true := by
  cases hi : n.integer? with
  | some i =>
    simp only [number?, hi] at h
    obtain rfl := Option.some.inj h
    obtain ⟨-, habs, hlt⟩ := of_integer? hi
    have hfinite : (Binary64.ofNat i.natAbs).isFinite = true :=
      Binary64.isFinite_ofNat (by omega)
    simp only [Number.toBinary64]
    split
    · exact hfinite
    · rwa [Binary64.isFinite_neg]
  | none =>
    simp only [number?, hi] at h
    generalize (jam n.decimal).toBinary64 = rounded at h
    split at h
    · next hfinite =>
      obtain rfl := Option.some.inj h
      simp only [Number.toBinary64]
      split
      · rwa [Binary64.isFinite_neg]
      · exact hfinite
    · exact absurd h.symm (Option.some_ne_none x)

/-- A numeral has a value exactly if its size is below the bound. -/
theorem isSome_number?_iff (n : Numeral) :
    n.number?.isSome = true ↔ n.written.value < Binary64.overflow := by
  rw [← DecimalNumber.isFinite_toBinary64_iff, ← toBinary64_decimal]
  cases hi : n.integer? with
  | some i =>
    obtain ⟨hplain, -, hlt⟩ := of_integer? hi
    have hover : 2 ^ 64 ≤ Binary64.overflow := Binary64.two_pow_le_overflow (by decide)
    refine iff_of_true (by simp only [number?, hi, Option.isSome_some]) ?_
    rw [decimal_of_isPlain hplain, DecimalNumber.isFinite_toBinary64]
    simpa using hlt.trans_le hover
  | none =>
    simp only [number?, hi, isFinite_jam]
    generalize n.decimal.toBinary64.isFinite = finite
    cases finite <;> simp

end Metering.Json.Numeral
