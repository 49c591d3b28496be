import Mathlib.Data.List.TakeWhile
import Metering.Json.Scan
import Metering.Proofs.Binary64.Shortest

/-!
# Proofs: numerals read back

The text of a numeral is read as that numeral, whatever follows, as long as it does not go on with a
part of a numeral. The numeral of a word has the word as its value, and the numeral of a finite
binary64 number has that number.
-/

namespace Metering.Json

open Decimal

/-! ## The text of a numeral -/

/-- Whether a text does not go on with a part of a numeral. -/
def EndsNumeral (r : List Char) : Prop :=
  ∀ c ∈ r.head?, Digit.ofChar? c = none ∧ c ≠ '.' ∧ c ≠ 'e' ∧ c ≠ 'E'

theorem EndsNumeral.stopsDigits {r : List Char} (h : EndsNumeral r) : StopsDigits r :=
  fun c hc => (h c hc).1

theorem readDigits_digitsText (cut : Fault) (ds : List Digit) (r : List Char) (hds : ds ≠ [])
    (hr : StopsDigits r) : readDigits cut (digitsText ds ++ r) = .ok (ds, r) := by
  cases ds with
  | nil => exact absurd rfl hds
  | cons d ds => simp only [readDigits, spanDigits_digitsText _ r hr]

theorem readWhole_text (cut : Fault) (n : Nat) (r : List Char) (hr : StopsDigits r) :
    readWhole cut (Decimal.text n ++ r) = .ok (n, r) := by
  have hvalue := ofDigits_digits n
  simp only [readWhole, Decimal.text,
    readDigits_digitsText cut (digits n) r (digits_ne_nil n) hr, ok_bind]
  -- The digits of a number are refused only if a zero stands in front of others.
  split
  · next d ds r' h =>
    have h0 := digits_zero_cons n (d :: ds) (Prod.mk.inj h).1
    exact absurd h0 (List.cons_ne_nil _ _)
  · next h =>
    cases h
    rw [hvalue]

theorem readFraction_fractionText (cut : Fault) (ds : List Digit) (r : List Char)
    (hr : StopsDigits r) (hdot : ∀ c ∈ r.head?, c ≠ '.') :
    readFraction cut (Numeral.fractionText ds ++ r) = .ok (ds, r) := by
  by_cases hds : ds = []
  · subst hds
    cases r with
    | nil => rfl
    | cons c r =>
      have hc : c ≠ '.' := hdot c rfl
      simp [Numeral.fractionText, readFraction, hc]
  · simp only [Numeral.fractionText, if_neg hds, List.cons_append, readFraction]
    exact readDigits_digitsText cut ds r hds hr

theorem readPower_text (cut : Fault) (negative : Bool) (n : Nat) (r : List Char)
    (hr : StopsDigits r) :
    readPower cut negative (Decimal.text n ++ r) =
      .ok (some (if negative then -(n : Int) else n), r) := by
  simp only [readPower, Decimal.text, readDigits_digitsText cut _ r (digits_ne_nil n) hr, ok_bind,
    ofDigits_digits]

theorem readExponent_exponentText (cut : Fault) (e : Option Int) (r : List Char)
    (hr : EndsNumeral r) :
    readExponent cut (Numeral.exponentText e ++ r) = .ok (e, r) := by
  cases e with
  | none =>
    cases r with
    | nil => rfl
    | cons c r =>
      obtain ⟨-, -, he, hE⟩ := hr c rfl
      simp [Numeral.exponentText, readExponent, he, hE]
  | some e =>
    have hpower := fun negative => readPower_text cut negative e.natAbs r hr.stopsDigits
    by_cases h : e < 0
    · have habs : -(e.natAbs : Int) = e := by omega
      have hread : readPower cut true (Decimal.text e.natAbs ++ r) = .ok (some e, r) := by
        rw [hpower, if_pos rfl, habs]
      simp [Numeral.exponentText, readExponent, h, hread]
    · have habs : (e.natAbs : Int) = e := by omega
      have hread : readPower cut false (Decimal.text e.natAbs ++ r) = .ok (some e, r) := by
        rw [hpower, if_neg Bool.false_ne_true, habs]
      simp [Numeral.exponentText, readExponent, h, hread]

theorem stopsDigits_fractionText (ds : List Digit) (r : List Char) (hr : StopsDigits r) :
    StopsDigits (Numeral.fractionText ds ++ r) := by
  by_cases hds : ds = []
  · simpa [Numeral.fractionText, hds] using hr
  · intro c hc
    have : c = '.' := by simpa [Numeral.fractionText, hds, eq_comm] using hc
    rw [this]
    rfl

theorem stopsDigits_exponentText (e : Option Int) (r : List Char) (hr : EndsNumeral r) :
    StopsDigits (Numeral.exponentText e ++ r) ∧
      ∀ c ∈ (Numeral.exponentText e ++ r).head?, c ≠ '.' := by
  cases e with
  | none => exact ⟨hr.stopsDigits, fun c hc => (hr c hc).2.1⟩
  | some e =>
    have he : ∀ c ∈ (Numeral.exponentText (some e) ++ r).head?, c = 'e' := by
      intro c hc
      simpa [Numeral.exponentText, eq_comm] using hc
    constructor
    · intro c hc
      rw [he c hc]
      rfl
    · intro c hc
      rw [he c hc]
      decide

theorem Digit.char_ne_minus (d : Digit) : d.char ≠ '-' := by
  revert d
  decide

theorem readSign_text (negative : Bool) (n : Nat) (r : List Char) :
    readSign ((if negative then ['-'] else []) ++ (Decimal.text n ++ r)) =
      (negative, Decimal.text n ++ r) := by
  cases negative with
  | true => rfl
  | false =>
    obtain ⟨d, t, ht⟩ := text_eq_cons n
    have hd := Digit.char_ne_minus d
    simp [ht, readSign, hd]

theorem readNumeral_text (cut : Fault) (n : Numeral) (r : List Char) (hr : EndsNumeral r) :
    readNumeral cut (n.text ++ r) = .ok (n, r) := by
  obtain ⟨hstops, hdot⟩ := stopsDigits_exponentText n.exponent r hr
  have hwhole := readWhole_text cut n.whole
    (Numeral.fractionText n.fraction ++ (Numeral.exponentText n.exponent ++ r))
    (stopsDigits_fractionText _ _ hstops)
  have hfraction := readFraction_fractionText cut n.fraction _ hstops hdot
  have hexponent := readExponent_exponentText cut n.exponent r hr
  simp only [readNumeral, Numeral.text, List.append_assoc, readSign_text, hwhole, hfraction,
    hexponent, ok_bind]

/-! ## The value of a numeral -/

namespace Numeral

/-- The numeral of a word has the word as its value. -/
theorem number?_ofNat (n : Nat) (h : n < 2 ^ 64) : (ofNat n).number? = some (.integer n) := by
  simp [number?, integer?, ofNat, isPlain, h]

/-- The digits of a numeral as they stand, zeros at the end included. -/
def written (n : Numeral) : DecimalNumber :=
  ⟨n.whole * 10 ^ n.fraction.length + ofDigits n.fraction,
    n.exponent.getD 0 - n.fraction.length⟩

theorem exists_replicate_zero (ds : List Digit) :
    ∃ k, ds = (ds.reverse.dropWhile (· = Digit.zero)).reverse ++ List.replicate k Digit.zero := by
  have hsplit := List.takeWhile_append_dropWhile (p := (· = Digit.zero)) (l := ds.reverse)
  have hzero : ds.reverse.takeWhile (· = Digit.zero) =
      List.replicate (ds.reverse.takeWhile (· = Digit.zero)).length Digit.zero := by
    refine List.eq_replicate_iff.mpr ⟨rfl, ?_⟩
    intro d hd
    simpa using List.mem_takeWhile_imp hd
  refine ⟨(ds.reverse.takeWhile (· = Digit.zero)).length, ?_⟩
  rw [← List.reverse_inj, List.reverse_append, List.reverse_reverse, List.reverse_replicate,
    ← hzero, hsplit]

/-- Leaving out zeros at the end of the fraction divides by a power of ten and changes the exponent
by as much. -/
theorem written_eq (n : Numeral) :
    ∃ k : Nat, n.written.digits = n.decimal.digits * 10 ^ k ∧
      n.decimal.exponent = n.written.exponent + k := by
  obtain ⟨k, hk⟩ := exists_replicate_zero n.fraction
  refine ⟨k, ?_, ?_⟩
  · have hlength := congrArg List.length hk
    have hvalue := congrArg ofDigits hk
    rw [List.length_append, List.length_replicate] at hlength
    rw [ofDigits_append_list, ofDigits_replicate_zero, List.length_replicate] at hvalue
    simp only [written, decimal, hlength, hvalue, pow_add]
    ring
  · have hlength := congrArg List.length hk
    rw [List.length_append, List.length_replicate] at hlength
    simp only [written, decimal, hlength]
    omega

theorem toBinary64_decimal (n : Numeral) : n.decimal.toBinary64 = n.written.toBinary64 := by
  obtain ⟨k, hdigits, hexponent⟩ := written_eq n
  have h := DecimalNumber.toBinary64_mul_pow n.decimal.digits k n.written.exponent
  rw [← hdigits, ← hexponent] at h
  exact h.symm

theorem digits_decimal_le (n : Numeral) : n.decimal.digits ≤ n.written.digits := by
  obtain ⟨k, hdigits, -⟩ := written_eq n
  rw [hdigits]
  exact Nat.le_mul_of_pos_right _ (Nat.pow_pos (by decide))

/-- A numeral with few digits is rounded as it stands. -/
theorem toBinary64_jam_decimal (n : Numeral) (h : n.written.digits < jamLimit) :
    (jam n.decimal).toBinary64 = n.written.toBinary64 := by
  rw [jam, if_pos ((digits_decimal_le n).trans_lt h), toBinary64_decimal]

/-- The whole part and the fraction together are the digits of a numeral. -/
theorem written_ofDigits (negative : Bool) (ws fs : List Digit) (e : Option Int) :
    (⟨negative, ofDigits ws, fs, e⟩ : Numeral).written =
      ⟨ofDigits (ws ++ fs), e.getD 0 - fs.length⟩ := by
  rw [written, ofDigits_append_list]

/-! ## The numeral of a binary64 number -/

/-- In positional notation zeros may have been added at the end, and only where nothing stands after
the point. -/
theorem positional_eq (d : DecimalNumber) (whole fraction : List Digit)
    (h : Binary64.positional d = (whole, fraction)) :
    (fraction ≠ [] ∧ ofDigits (whole ++ fraction) = d.digits ∧
        -(fraction.length : Int) = d.exponent) ∨
      ∃ k : Nat, fraction = [] ∧ ofDigits whole = d.digits * 10 ^ k ∧ d.exponent = k ∧
        whole.length = (digits d.digits).length + k := by
  have hvalue := ofDigits_digits d.digits
  have hne := digits_ne_nil d.digits
  simp only [Binary64.positional] at h
  split at h
  · next hpoint =>
    obtain ⟨rfl, rfl⟩ := Prod.mk.inj h
    left
    refine ⟨by simp [hne], ?_, ?_⟩
    · rw [← List.append_assoc, ofDigits_append_list, hvalue]
      have hzeros := ofDigits_replicate_zero
        ((-(((digits d.digits).length : Int) + d.exponent)).toNat + 1)
      rw [List.replicate_succ, ← List.singleton_append] at hzeros
      rw [hzeros]
      omega
    · rw [List.length_append, List.length_replicate]
      omega
  · split at h
    · next hpoint hlength =>
      obtain ⟨rfl, rfl⟩ := Prod.mk.inj h
      right
      refine ⟨d.exponent.toNat, rfl, ?_, by omega, ?_⟩
      · rw [ofDigits_append_list, ofDigits_replicate_zero, List.length_replicate, hvalue,
          Nat.add_zero]
        congr 2
        omega
      · rw [List.length_append, List.length_replicate]
        omega
    · next hpoint hlength =>
      obtain ⟨rfl, rfl⟩ := Prod.mk.inj h
      left
      refine ⟨?_, ?_, ?_⟩
      · simp only [ne_eq, List.drop_eq_nil_iff]
        omega
      · rw [List.take_append_drop, hvalue]
      · rw [List.length_drop]
        omega

/-- The digits that are written of a number are those of its shortest decimal, up to zeros at the
end, and few enough to be read as they stand. -/
theorem written_ofBinary64 (x : Binary64) (hx : x.isFinite) :
    ∃ k : Nat, (ofBinary64 x).written =
        ⟨(x.shortest .even).digits * 10 ^ k, (x.shortest .even).exponent - k⟩ ∧
      (ofBinary64 x).written.digits < jamLimit := by
  have hvalue := ofDigits_digits (x.shortest .even).digits
  have hfew : (x.shortest .even).digits < jamLimit := Binary64.digits_shortest_lt .even x hx
  simp only [ofBinary64]
  split
  · next hrange =>
    cases hp : Binary64.positional (x.shortest .even) with
    | mk whole fraction =>
      rcases positional_eq _ _ _ hp with ⟨hne, hdigits, hexp⟩ | ⟨k, hnil, hdigits, hexp, hlen⟩
      · refine ⟨0, ?_, ?_⟩
        · simp only [if_neg hne, written_ofDigits, hdigits, Option.getD_none]
          simp [← hexp]
        · simpa only [if_neg hne, written_ofDigits, hdigits] using hfew
      · have hwritten : ofDigits (whole ++ [Digit.zero]) =
            (x.shortest .even).digits * 10 ^ (k + 1) := by
          rw [ofDigits_append, hdigits, pow_succ]
          simp only [Digit.zero]
          ring
        refine ⟨k + 1, ?_, ?_⟩
        · simp only [if_pos hnil, written_ofDigits, hwritten, Option.getD_none, hexp,
            List.length_singleton]
          congr 1
          push_cast
          ring
        · simp only [if_pos hnil, written_ofDigits]
          -- Nothing stands after the point, so there are at most sixteen digits before it.
          have hshort : (whole ++ [Digit.zero]).length ≤ plainDigits := by
            simp only [firstScientific] at hrange
            simp only [List.length_append, List.length_singleton, plainDigits]
            omega
          exact (ofDigits_lt _).trans_le (Nat.pow_le_pow_right (by decide) hshort)
  · have hsplit := List.take_append_drop 1 (digits (x.shortest .even).digits)
    have hlen := List.length_pos_iff.mpr (digits_ne_nil (x.shortest .even).digits)
    refine ⟨0, ?_, ?_⟩
    · simp only [written_ofDigits, hsplit, hvalue, Option.getD_some, List.length_drop, pow_zero,
        mul_one]
      congr 1
      omega
    · simpa only [written_ofDigits, hsplit, hvalue] using hfew

theorem isPlain_ofBinary64 (x : Binary64) : (ofBinary64 x).isPlain = false := by
  simp only [ofBinary64]
  split
  · by_cases h : (Binary64.positional (x.shortest .even)).2 = [] <;> simp [isPlain, h]
  · simp [isPlain]

theorem negative_ofBinary64 (x : Binary64) : (ofBinary64 x).negative = x.negative := by
  simp only [ofBinary64]
  split <;> rfl

/-- The numeral of a finite number has the number as its value, with its sign also if it is a
zero. -/
theorem number?_ofBinary64 (x : Binary64) (hx : x.isFinite) :
    (ofBinary64 x).number? = some (.real x) := by
  obtain ⟨k, hwritten, hfew⟩ := written_ofBinary64 x hx
  have hread : (jam (ofBinary64 x).decimal).toBinary64 = x.abs := by
    rw [toBinary64_jam_decimal _ hfew, hwritten, DecimalNumber.toBinary64_mul_pow,
      Int.sub_add_cancel, Binary64.toBinary64_shortest .even x hx]
  have hinteger : (ofBinary64 x).integer? = none := by
    simp [integer?, isPlain_ofBinary64]
  have hfinite : x.abs.isFinite := (Binary64.isFinite_abs x).trans hx
  simp only [number?, hinteger, hread, negative_ofBinary64, if_pos hfinite, Binary64.signed_abs]

end Numeral

end Metering.Json
