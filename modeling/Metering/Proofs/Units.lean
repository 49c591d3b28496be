import Metering.Units
import Metering.Proofs.Decimal
import Metering.Proofs.Binary64.Nearest

/-!
# Proofs: numbers in front of units

A duration or a size is shown in the first unit that it does not fill, by the nearest tenth of that
unit. The unit is chosen before the number is rounded, so where at most a twentieth of the unit is
missing to the next larger one, the number is rounded up to a full next unit; everywhere else it
stays below.
-/

namespace Metering.Units

open Decimal

/-! ## Reading a quantity back -/

/-- A number and the unit behind it. -/
structure Quantity where
  /-- The number. -/
  number : ℚ
  /-- The name of the unit. -/
  unit : String

/-- Splits a text after a point and the digits behind it, if it starts with a point. -/
def spanDecimals : List Char → List Digit × List Char
  | '.' :: rest => spanDigits rest
  | rest => ([], rest)

/-- The quantity that a text shows: digits, decimals where there is a point, and the unit. -/
def Quantity.ofText (text : String) : Quantity :=
  let (whole, rest) := spanDigits text.toList
  let (decimals, unit) := spanDecimals rest
  ⟨ofDigits whole + ofDigits decimals / 10 ^ decimals.length, String.ofList unit⟩

section

variable {text name : String} (hname : StopsDigits name.toList)
include hname

theorem ofText_whole {whole : List Digit} (hpoint : spanDecimals name.toList = ([], name.toList))
    (htext : text.toList = digitsText whole ++ name.toList) :
    Quantity.ofText text = ⟨ofDigits whole, name⟩ := by
  have hzero : (ofDigits [] : ℚ) / 10 ^ ([] : List Digit).length = 0 := by simp [ofDigits]
  rw [Quantity.ofText, htext, spanDigits_digitsText _ _ hname]
  dsimp only
  rw [hpoint]
  dsimp only
  rw [hzero, add_zero, String.ofList_toList]

theorem ofText_decimals {whole decimals : List Digit}
    (htext : text.toList = digitsText whole ++ '.' :: (digitsText decimals ++ name.toList)) :
    Quantity.ofText text = ⟨ofDigits whole + ofDigits decimals / 10 ^ decimals.length, name⟩ := by
  have hstops : StopsDigits ('.' :: (digitsText decimals ++ name.toList)) := by
    intro c hc
    cases hc
    rfl
  have hdecimals : spanDecimals ('.' :: (digitsText decimals ++ name.toList)) =
      (decimals, name.toList) := spanDigits_digitsText _ _ hname
  rw [Quantity.ofText, htext, spanDigits_digitsText _ _ hstops]
  dsimp only
  rw [hdecimals, String.ofList_toList]

end

/-! ## A number with one decimal -/

/-- A number in tenths of a unit, as they are shown. -/
def tenthsOf (n unit : Nat) : Nat := ((Binary64.ofNat n).quotient (Binary64.ofNat unit)).tenths

section

variable (n : UInt64) {unit : Nat} (hpos : 0 < unit) (hunit : unit < 2 ^ 53)
include hpos hunit

theorem toList_scaled (name : String) :
    (scaled n unit name).toList =
      digitsText (digits (tenthsOf n.toNat unit / 10)) ++
        '.' :: (digitsText (digits (tenthsOf n.toNat unit % 10)) ++ name.toList) := by
  have hfinite := Binary64.isFinite_quotient_ofNat (n.toNat_lt.trans (by decide)) hpos hunit
  have hsign : ((Binary64.ofNat n.toNat).quotient (Binary64.ofNat unit)).negative = false :=
    Binary64.negative_ofRatio hfinite
  rw [scaled, String.toList_append, String.toList_ofList, Binary64.fixedText, if_pos hfinite,
    Binary64.signText, hsign, if_neg Bool.false_ne_true, List.nil_append, List.append_assoc,
    List.cons_append, Decimal.text, Decimal.text, tenthsOf]

theorem ofText_scaled {name : String} (hname : StopsDigits name.toList) :
    Quantity.ofText (scaled n unit name) = ⟨tenthsOf n.toNat unit / 10, name⟩ := by
  have hdigit : digits (tenthsOf n.toNat unit % 10) =
      [⟨tenthsOf n.toNat unit % 10, Nat.mod_lt _ (by decide)⟩] := by
    rw [digits, dif_pos (Nat.mod_lt _ (by decide))]
  have hsplit : ((tenthsOf n.toNat unit / 10 : Nat) : ℚ) + (tenthsOf n.toNat unit % 10 : Nat) / 10 =
      (tenthsOf n.toNat unit : ℚ) / 10 := by
    conv_rhs => rw [← Nat.div_add_mod (tenthsOf n.toNat unit) 10]
    push_cast
    ring
  rw [ofText_decimals hname (toList_scaled n hpos hunit name), ofDigits_digits, ofDigits_digits,
    hdigit, List.length_singleton, pow_one, hsplit]

end

/-! ## Scales -/

/-- A unit that is followed by a larger one. -/
structure Rung where
  /-- The name of the unit. -/
  name : String
  /-- The size of the unit, counted in the smallest one. -/
  size : Nat
  /-- How many of the unit make the next larger one. -/
  full : Nat
  deriving DecidableEq

/-- The units of durations below the hour. -/
def nanosRungs : List Rung :=
  [⟨"ns", 1, 1000⟩, ⟨"us", 1000, 1000⟩, ⟨"ms", 1000000, 1000⟩, ⟨"s", 1000000000, 60⟩,
    ⟨"min", 60000000000, 60⟩]

/-- The units of sizes below the gigabyte. -/
def bytesRungs : List Rung := [⟨"B", 1, 1000⟩, ⟨"kB", 1000, 1000⟩, ⟨"MB", 1000000, 1000⟩]

/-- The first unit that a number does not fill. -/
def rungOf (rungs : List Rung) (n : Nat) : Option Rung := rungs.find? fun r => n < r.full * r.size

/-- Whether at most a twentieth of a unit is missing to the next larger one. -/
def Rung.RoundsUp (r : Rung) (n : Nat) : Prop := r.full * r.size ≤ n + r.size / 20

/-- Whether a quantity shows a number in a unit: the quantity misses the number by at most a
twentieth of the unit, and it is below a full next unit except where it is rounded up to it. -/
structure Rung.Shows (r : Rung) (n : Nat) (q : Quantity) : Prop where
  /-- The unit is the right one. -/
  unit_eq : q.unit = r.name
  /-- At most a twentieth of it is missed. -/
  near : 20 * |q.number * r.size - n| ≤ r.size
  /-- There is at most a full next unit. -/
  le_full : q.number ≤ r.full
  /-- A full next unit is shown only where it is rounded up to. -/
  lt_full_iff : q.number < r.full ↔ ¬ r.RoundsUp n

/-- Whether a quantity shows a number in the first unit that it does not fill, or else in the
largest one. -/
def ShownIn (rungs : List Rung) (largest : String) (n : Nat) (q : Quantity) : Prop :=
  match rungOf rungs n with
  | some r => r.Shows n q
  | none => q.unit = largest

/-! ## The number in one unit -/

namespace Rung

/-- The text of a number in a unit: the smallest unit is shown without decimals. -/
def text (r : Rung) (n : UInt64) : String :=
  if r.size = 1 then numberText n ++ r.name else scaled n r.size r.name

/-- What makes the numbers in front of a unit known: its name starts with neither a digit nor a
point, its numbers are divided without an error that counts, and the tie at which rounding up begins
goes up. -/
structure Sound (r : Rung) : Prop where
  /-- The name does not go on with the digits of a number. -/
  stopsDigits : StopsDigits r.name.toList
  /-- The name does not start with decimals. -/
  spanDecimals_name : spanDecimals r.name.toList = ([], r.name.toList)
  /-- A unit that is not the smallest one has a twentieth. -/
  size_cases : r.size = 1 ∨ 0 < r.size ∧ r.size % 20 = 0
  /-- There is room below the next unit. -/
  full_pos : 0 < r.full
  /-- Whole numbers of this size are divided precisely enough. -/
  filled_lt : 20 * (r.full * r.size) < 2 ^ 53
  /-- The tie goes up. -/
  tie_up : 10 * r.full ≤ tenthsOf (r.full * r.size - r.size / 20) r.size

instance (r : Rung) : Decidable r.Sound :=
  decidable_of_iff
    (StopsDigits r.name.toList ∧ spanDecimals r.name.toList = ([], r.name.toList) ∧
      (r.size = 1 ∨ 0 < r.size ∧ r.size % 20 = 0) ∧ 0 < r.full ∧
      20 * (r.full * r.size) < 2 ^ 53 ∧
      10 * r.full ≤ tenthsOf (r.full * r.size - r.size / 20) r.size)
    ⟨fun ⟨h₁, h₂, h₃, h₄, h₅, h₆⟩ => ⟨h₁, h₂, h₃, h₄, h₅, h₆⟩,
      fun ⟨h₁, h₂, h₃, h₄, h₅, h₆⟩ => ⟨h₁, h₂, h₃, h₄, h₅, h₆⟩⟩

variable {r : Rung} (hr : r.Sound)
include hr

theorem Sound.size_pos : 0 < r.size := by
  rcases hr.size_cases with h | h <;> omega

theorem Sound.size_lt : r.size < 2 ^ 53 := by
  have hle := Nat.le_mul_of_pos_left r.size hr.full_pos
  have hlt := hr.filled_lt
  omega

section

variable {n : Nat} (hn : n < r.full * r.size)
include hn

theorem Sound.tenths_near :
    2 * (r.size * tenthsOf n r.size) ≤ 20 * n + r.size ∧
      20 * n ≤ 2 * (r.size * tenthsOf n r.size) + r.size :=
  Binary64.tenths_quotient_near
    ((Nat.mul_le_mul_left 20 hn.le).trans_lt hr.filled_lt) hr.size_pos hr.size_lt

theorem Sound.tenths_le : tenthsOf n r.size ≤ 10 * r.full := by
  have hnear := (hr.tenths_near hn).1
  have hfull : r.size * (10 * r.full + 1) = 10 * (r.full * r.size) + r.size := by ring
  refine Nat.le_of_lt_succ (Nat.lt_of_mul_lt_mul_left (a := r.size) ?_)
  rw [Nat.succ_eq_add_one, hfull]
  omega

/-- The tenths are below a full next unit exactly if more than a twentieth of the unit is missing.
On both sides of the tie the nearest tenth decides; the tie itself goes up. -/
theorem Sound.tenths_lt_iff (hsize : r.size ≠ 1) :
    tenthsOf n r.size < 10 * r.full ↔ ¬ r.RoundsUp n := by
  have hnear := hr.tenths_near hn
  have hmod := (hr.size_cases.resolve_left hsize).2
  have hfull : r.size * (10 * r.full) = 10 * (r.full * r.size) := by ring
  have hstep : r.size * (tenthsOf n r.size + 1) = r.size * tenthsOf n r.size + r.size :=
    Nat.mul_succ _ _
  rw [RoundsUp, Nat.not_le]
  constructor
  · intro hlt
    by_contra hup
    rcases Nat.lt_or_eq_of_le (show r.full * r.size - r.size / 20 ≤ n by omega) with habove | rfl
    · have hle := Nat.mul_le_mul_left r.size (Nat.succ_le_of_lt hlt)
      rw [Nat.succ_eq_add_one] at hle
      omega
    · exact absurd hr.tie_up (Nat.not_le.mpr hlt)
  · intro hdown
    refine Nat.lt_of_mul_lt_mul_left (a := r.size) ?_
    omega

end

/-- What is read back from the text of a number that does not fill the next unit. -/
theorem Sound.shows_text {n : UInt64} (hn : n.toNat < r.full * r.size) :
    r.Shows n.toNat (Quantity.ofText (r.text n)) := by
  unfold text
  split
  · next hsize =>
    have htext : (numberText n ++ r.name).toList = digitsText (digits n.toNat) ++ r.name.toList := by
      rw [String.toList_append, numberText, String.toList_ofList, Decimal.text]
    have hlt : n.toNat < r.full := by rwa [hsize, Nat.mul_one] at hn
    rw [ofText_whole hr.stopsDigits hr.spanDecimals_name htext, ofDigits_digits]
    refine ⟨rfl, ?_, Nat.cast_le.mpr hlt.le, iff_of_true (Nat.cast_lt.mpr hlt) ?_⟩
    · simp [hsize]
    · rw [RoundsUp, hsize, Nat.not_le]
      omega
  · next hsize =>
    have hten : (0 : ℚ) < 10 := by norm_num
    have hcast (a : Nat) : (a : ℚ) * 10 = (10 * a : Nat) := by push_cast; ring
    obtain ⟨hlow, hhigh⟩ := hr.tenths_near hn
    rw [ofText_scaled n hr.size_pos hr.size_lt hr.stopsDigits]
    refine ⟨rfl, ?_, ?_, ?_⟩
    · rw [← abs_of_pos (show (0 : ℚ) < 20 by norm_num), ← abs_mul, abs_le]
      have hlow' : 2 * ((r.size : ℚ) * tenthsOf n.toNat r.size) ≤ 20 * n.toNat + r.size := by
        exact_mod_cast hlow
      have hhigh' : (20 : ℚ) * n.toNat ≤ 2 * (r.size * tenthsOf n.toNat r.size) + r.size := by
        exact_mod_cast hhigh
      constructor <;> linarith
    · rw [div_le_iff₀ hten, hcast]
      exact Nat.cast_le.mpr (hr.tenths_le hn)
    · rw [div_lt_iff₀ hten, hcast, Nat.cast_lt]
      exact hr.tenths_lt_iff hn hsize

end Rung

/-! ## Durations and sizes -/

theorem sound_rungs : ∀ r ∈ nanosRungs ++ bytesRungs, r.Sound := by decide +kernel

/-- The text of a number in the first unit that it does not fill, or else in the largest one. -/
def textIn (rungs : List Rung) (size : Nat) (largest : String) (n : UInt64) : String :=
  match rungOf rungs n.toNat with
  | some r => r.text n
  | none => scaled n size largest

theorem nanos_eq (n : UInt64) : nanos n = textIn nanosRungs 3600000000000 "h" n := by
  simp only [nanos, UInt64.lt_iff_toNat_lt, UInt64.reduceToNat]
  split_ifs <;> simp [textIn, rungOf, nanosRungs, Rung.text, *]

theorem bytes_eq (n : UInt64) : bytes n = textIn bytesRungs 1000000000 "GB" n := by
  simp only [bytes, UInt64.lt_iff_toNat_lt, UInt64.reduceToNat]
  split_ifs <;> simp [textIn, rungOf, bytesRungs, Rung.text, *]

theorem shownIn_textIn {rungs : List Rung} (hrungs : ∀ r ∈ rungs, r.Sound) {size : Nat}
    (hpos : 0 < size) (hsize : size < 2 ^ 53) {largest : String}
    (hlargest : StopsDigits largest.toList) (n : UInt64) :
    ShownIn rungs largest n.toNat (Quantity.ofText (textIn rungs size largest n)) := by
  unfold ShownIn textIn
  cases h : rungOf rungs n.toNat with
  | none =>
    dsimp only
    rw [ofText_scaled n hpos hsize hlargest]
  | some r =>
    have hn : n.toNat < r.full * r.size := by simpa using List.find?_some h
    exact (hrungs r (List.mem_of_find?_eq_some h)).shows_text hn

/-- A duration and a size are shown in the first unit that they do not fill, by a number that misses
them by at most a twentieth of the unit. The number is at most a full next unit, and below it
exactly if more than a twentieth of the unit is missing. -/
theorem quantities_below_next_unit (n : UInt64) :
    ShownIn nanosRungs "h" n.toNat (Quantity.ofText (nanos n)) ∧
      ShownIn bytesRungs "GB" n.toNat (Quantity.ofText (bytes n)) := by
  have hnanos : ∀ r ∈ nanosRungs, r.Sound := fun r hr => sound_rungs r (List.mem_append_left _ hr)
  have hbytes : ∀ r ∈ bytesRungs, r.Sound := fun r hr => sound_rungs r (List.mem_append_right _ hr)
  rw [nanos_eq, bytes_eq]
  exact ⟨shownIn_textIn hnanos (by decide) (by decide) (by decide) n,
    shownIn_textIn hbytes (by decide) (by decide) (by decide) n⟩

/-- The number is not always below a full next unit: one nanosecond less than a millisecond is shown
as a thousand microseconds. -/
theorem full_next_unit_shown :
    ¬ ∀ n : UInt64,
      (∀ r ∈ nanosRungs, (Quantity.ofText (nanos n)).unit = r.name →
        (Quantity.ofText (nanos n)).number < r.full) ∧
      ∀ r ∈ bytesRungs, (Quantity.ofText (bytes n)).unit = r.name →
        (Quantity.ofText (bytes n)).number < r.full := by
  intro h
  have htext : nanos 999999 = scaled 999999 1000 "us" := by rfl
  have htenths : tenthsOf (999999 : UInt64).toNat 1000 = 10000 := by
    have hnear := Binary64.tenths_quotient_near (a := 999999) (b := 1000) (by decide) (by decide)
      (by decide)
    change ((Binary64.ofNat 999999).quotient (Binary64.ofNat 1000)).tenths = 10000
    omega
  have hshown : Quantity.ofText (scaled 999999 1000 "us") =
      ⟨tenthsOf (999999 : UInt64).toNat 1000 / 10, "us"⟩ :=
    ofText_scaled 999999 (by decide) (by decide) (by decide)
  have hlt := (h 999999).1 ⟨"us", 1000, 1000⟩ (by decide) (by rw [htext, hshown])
  rw [htext, hshown, htenths] at hlt
  norm_num at hlt

end Metering.Units
