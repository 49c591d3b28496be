/-!
# Saturating words

Times, counts and sizes are 64-bit words. Where a result does not fit, the operations below stop at
the nearest word instead of wrapping around. Each operation has one equation that says what it is
in the natural numbers.

The bounds are powers of two. Powers of natural numbers are those of the core library throughout,
also where the powers of an algebraic structure are in scope.
-/

attribute [instance (2000), default_instance 20000] instPowNat

namespace Metering.Word

/-- The largest word, `2 ^ 64 - 1`. -/
def top : UInt64 := 18446744073709551615

/-- The word nearest to `n`: `n` itself, or the largest word where `n` does not fit. -/
def ofNatCapped (n : Nat) : UInt64 := if n < 2 ^ 64 then UInt64.ofNat n else top

/-- The sum of two words, stopping at the largest word. -/
def satAdd (a b : UInt64) : UInt64 := ofNatCapped (a.toNat + b.toNat)

/-- The difference of two words, stopping at zero. -/
def satSub (a b : UInt64) : UInt64 := if b ≤ a then a - b else 0

theorem toNat_top : top.toNat = 2 ^ 64 - 1 := rfl

theorem toNat_ofNatCapped (n : Nat) : (ofNatCapped n).toNat = min n (2 ^ 64 - 1) := by
  unfold ofNatCapped
  split
  · next h => rw [UInt64.toNat_ofNat_of_lt' h]; omega
  · next h => rw [toNat_top]; omega

theorem toNat_satAdd (a b : UInt64) :
    (satAdd a b).toNat = min (a.toNat + b.toNat) (2 ^ 64 - 1) :=
  toNat_ofNatCapped _

theorem toNat_satSub (a b : UInt64) : (satSub a b).toNat = a.toNat - b.toNat := by
  unfold satSub
  split
  · next h => exact UInt64.toNat_sub_of_le a b h
  · next h =>
    have : ¬ b.toNat ≤ a.toNat := fun hle => h (UInt64.le_iff_toNat_le.mpr hle)
    simp; omega

end Metering.Word
