import Metering.Proofs.Json.Range
import Metering.Proofs.Json.Recognition

/-!
# Proofs: kinds of values

A kind says which values it admits and what each of them holds. Both are stated in terms of the
value alone: a word is a numeral without a sign, a fraction or a power of ten, and a number is one
whose size is below the bound of binary64. What the readers make of a value is the same.
-/

namespace Metering.Json

/-- A kind of values, with what a value of the kind holds. -/
structure Kind (α : Type) where
  /-- Whether a value is of the kind. -/
  Fits : Value → Prop
  /-- Whether a value holds this. -/
  Holds : Value → α → Prop
  /-- What a value is read as. -/
  meaning : Value → Option α
  /-- A value is read as what it holds. -/
  meaning_eq_some_iff : ∀ {v x}, meaning v = some x ↔ Holds v x
  /-- The values of the kind are those that hold something. -/
  fits_iff : ∀ {v}, Fits v ↔ ∃ x, Holds v x

namespace Kind

/-! ## Texts -/

/-- A text. -/
def text : Kind String where
  Fits v := ∃ s, v = .text s
  Holds v s := v = .text s
  meaning := Value.text?
  meaning_eq_some_iff := by
    intro v s
    cases v <;> simp [Value.text?]
  fits_iff := Iff.rfl

/-- A text or `null`. -/
def optionalText : Kind (Option String) where
  Fits v := v = .null ∨ ∃ s, v = .text s
  Holds v o := v = .null ∧ o = none ∨ ∃ s, v = .text s ∧ o = some s
  meaning := Value.optional? Value.text?
  meaning_eq_some_iff := by
    intro v o
    cases v <;> simp [Value.optional?, Value.text?, eq_comm]
  fits_iff := by
    intro v
    constructor
    · rintro (rfl | ⟨s, rfl⟩)
      · exact ⟨none, .inl ⟨rfl, rfl⟩⟩
      · exact ⟨some s, .inr ⟨s, rfl, rfl⟩⟩
    · rintro ⟨o, ⟨rfl, -⟩ | ⟨s, rfl, -⟩⟩
      · exact .inl rfl
      · exact .inr ⟨s, rfl⟩

end Kind

/-! ## Words -/

theorem Numeral.eq_ofNat {n : Numeral} {i : Int} (h : n.integer? = some i) (hi : 0 ≤ i) :
    n = ofNat i.toNat := by
  obtain ⟨negative, whole, fraction, exponent⟩ := n
  obtain ⟨hplain, -, -⟩ := of_integer? h
  simp only [isPlain, Bool.and_eq_true, List.isEmpty_iff, Option.isNone_iff_eq_none] at hplain
  obtain ⟨rfl, rfl⟩ := hplain
  cases negative with
  | true =>
    simp [integer?, isPlain] at h
    omega
  | false =>
    simp [integer?, isPlain] at h
    obtain ⟨-, rfl⟩ := h
    rfl

theorem Numeral.integer?_of_number? {n : Numeral} {i : Int}
    (h : n.number? = some (.integer i)) : n.integer? = some i := by
  cases hi : n.integer? with
  | some j =>
    simp only [number?, hi, Option.some.injEq, Number.integer.injEq] at h
    rw [h]
  | none =>
    simp only [number?, hi] at h
    generalize (jam n.decimal).toBinary64 = rounded at h
    split at h
    · cases h
    · cases h

theorem Value.word?_eq_some_iff {v : Value} {x : UInt64} :
    v.word? = some x ↔ v = .number (.ofNat x.toNat) := by
  constructor
  · intro h
    cases v with
    | number n =>
      simp only [word?, number?] at h
      split at h
      · next i hi =>
        split at h
        · next hrange =>
          obtain rfl := Option.some.inj h
          have hi := Numeral.integer?_of_number? hi
          have hnat : (UInt64.ofNat i.toNat).toNat = i.toNat := by
            rw [UInt64.toNat_ofNat']
            omega
          rw [hnat, ← Numeral.eq_ofNat hi hrange.1]
        · cases h
      · cases h
    | _ => cases h
  · rintro rfl
    have hx := x.toNat_lt
    have hrange : (0 : Int) ≤ x.toNat ∧ (x.toNat : Int) < 2 ^ 64 := by omega
    simp only [word?, number?, Numeral.number?_ofNat _ hx, if_pos hrange, Int.toNat_natCast,
      UInt64.ofNat_toNat]

theorem Words.eq_cons {k : Nat} (w : Words (k + 1)) : ∃ x w', w = Words.cons x w' := by
  obtain ⟨xs, hxs⟩ := w
  cases xs with
  | nil => cases hxs
  | cons x xs => exact ⟨x, ⟨xs, Nat.succ.inj hxs⟩, rfl⟩

theorem Words.cons_inj {k : Nat} {x y : UInt64} {w w' : Words k} :
    w.cons x = w'.cons y ↔ x = y ∧ w = w' := by
  cases w
  cases w'
  simp [Words.cons]

theorem Value.wordsOf?_eq_some_iff {k : Nat} {vs : List Value} {w : Words k} :
    wordsOf? k vs = some w ↔ vs = w.toList.map fun x => .number (.ofNat x.toNat) := by
  induction k generalizing vs with
  | zero =>
    obtain ⟨xs, hxs⟩ := w
    obtain rfl := List.length_eq_zero_iff.mp hxs
    cases vs with
    | nil => exact iff_of_true rfl rfl
    | cons v vs => exact iff_of_false (by simp [wordsOf?]) (by simp)
  | succ k ih =>
    obtain ⟨x, w, rfl⟩ := Words.eq_cons w
    cases vs with
    | nil => exact iff_of_false (by simp [wordsOf?]) (by simp [Words.cons])
    | cons v vs =>
      have hmap : (w.cons x).toList.map (fun x => Value.number (.ofNat x.toNat)) =
          .number (.ofNat x.toNat) :: w.toList.map fun x => .number (.ofNat x.toNat) := rfl
      rw [hmap, List.cons.injEq, ← word?_eq_some_iff, ← ih, wordsOf?]
      cases v.word? with
      | none => simp
      | some y => simp [Words.cons_inj, and_comm, eq_comm]

namespace Kind

/-- A word: a natural number without a sign, a fraction or a power of ten. -/
def word : Kind UInt64 where
  Fits v := ∃ n < 2 ^ 64, v = .number (.ofNat n)
  Holds v x := v = .number (.ofNat x.toNat)
  meaning := Value.word?
  meaning_eq_some_iff := Value.word?_eq_some_iff
  fits_iff := by
    intro v
    constructor
    · rintro ⟨n, hn, rfl⟩
      exact ⟨UInt64.ofNat n, by rw [UInt64.toNat_ofNat_of_lt' hn]⟩
    · rintro ⟨x, rfl⟩
      exact ⟨x.toNat, x.toNat_lt, rfl⟩

/-- An array of exactly so many words. -/
def words (k : Nat) : Kind (Words k) where
  Fits v := ∃ ns : List Nat, ns.length = k ∧ (∀ n ∈ ns, n < 2 ^ 64) ∧
    v = .list (ns.map fun n => .number (.ofNat n))
  Holds v w := v = .list (w.toList.map fun x => .number (.ofNat x.toNat))
  meaning := Value.words? k
  meaning_eq_some_iff := by
    intro v w
    cases v with
    | list vs => simpa [Value.words?] using Value.wordsOf?_eq_some_iff
    | _ => simp [Value.words?]
  fits_iff := by
    intro v
    constructor
    · rintro ⟨ns, hlength, hns, rfl⟩
      refine ⟨⟨ns.map UInt64.ofNat, by rw [List.length_map, hlength]⟩, ?_⟩
      rw [List.map_map, Value.list.injEq]
      refine List.map_congr_left fun n hn => ?_
      rw [Function.comp_apply, UInt64.toNat_ofNat_of_lt' (hns n hn)]
    · rintro ⟨w, rfl⟩
      refine ⟨w.toList.map UInt64.toNat, by rw [List.length_map, w.length_toList], ?_, ?_⟩
      · intro n hn
        obtain ⟨x, -, rfl⟩ := List.mem_map.mp hn
        exact x.toNat_lt
      · rw [List.map_map]
        rfl

/-- A number that is finite in binary64, or `null` for zero. -/
def realOrZero : Kind Binary64 where
  Fits v := v = .null ∨ ∃ n, v = .number n ∧ n.written.value < Binary64.overflow
  Holds v x := v = .null ∧ x = .zero ∨
    ∃ n y, v = .number n ∧ n.number? = some y ∧ x = y.toBinary64
  meaning v := (Value.optional? Value.real? v).map (·.getD .zero)
  meaning_eq_some_iff := by
    intro v x
    cases v <;> simp [Value.optional?, Value.real?, Value.number?, eq_comm]
  fits_iff := by
    intro v
    constructor
    · rintro (rfl | ⟨n, rfl, hn⟩)
      · exact ⟨.zero, .inl ⟨rfl, rfl⟩⟩
      · obtain ⟨y, hy⟩ := Option.isSome_iff_exists.mp (n.isSome_number?_iff.mpr hn)
        exact ⟨y.toBinary64, .inr ⟨n, y, rfl, hy, rfl⟩⟩
    · rintro ⟨x, ⟨rfl, -⟩ | ⟨n, y, rfl, hy, -⟩⟩
      · exact .inl rfl
      · exact .inr ⟨n, rfl, n.isSome_number?_iff.mp (Option.isSome_of_eq_some hy)⟩

end Kind
end Metering.Json
