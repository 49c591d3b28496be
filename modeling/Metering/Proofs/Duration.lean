import Mathlib.Data.List.TakeWhile
import Metering.Duration
import Metering.Proofs.Decimal

/-!
# Proofs: durations are read by their grammar

A written duration is white space, digits, white space, the name of a unit, white space. The reader
trims the text, takes off its digits and trims the rest, so it accepts this and nothing else. What
follows the digits never starts with another digit, and no name of a unit starts or ends with white
space; this is why the parts of a written duration are found again.
-/

namespace Metering

namespace Text

/-! ## Trimming -/

/-- Whether a text consists of white space. -/
def Blank (b : List Char) : Prop := ∀ c ∈ b, isBlank c = true

theorem Blank.append {b b' : List Char} (hb : Blank b) (hb' : Blank b') : Blank (b ++ b') := by
  intro c hc
  rcases List.mem_append.mp hc with hc | hc
  · exact hb c hc
  · exact hb' c hc

theorem Blank.reverse {b : List Char} (hb : Blank b) : Blank b.reverse :=
  fun c hc => hb c (List.mem_reverse.mp hc)

theorem trimEnd_append_blank (s : List Char) {b : List Char} (hb : Blank b) :
    trimEnd (s ++ b) = trimEnd s := by
  rw [trimEnd, List.reverse_append, List.dropWhile_append_of_pos hb.reverse, trimEnd]

theorem trim_append_blank (s : List Char) {b : List Char} (hb : Blank b) :
    trim (s ++ b) = trim s := by
  have hnil : b.dropWhile isBlank = [] := List.dropWhile_eq_nil_iff.mpr hb
  rw [trim, List.dropWhile_append]
  split
  · next h => rw [hnil, trim, List.isEmpty_iff.mp h]
  · rw [trimEnd_append_blank _ hb, trim]

theorem trim_blank_append {b : List Char} (hb : Blank b) (s : List Char) :
    trim (b ++ s) = trim s := by
  rw [trim, List.dropWhile_append_of_pos hb, trim]

/-- Trimming the end of a text leaves a front alone that has no white space. -/
theorem trimEnd_append {p : List Char} (hp : ∀ c ∈ p, isBlank c = false) (s : List Char) :
    trimEnd (p ++ s) = p ++ trimEnd s := by
  have hkept : p.reverse.dropWhile isBlank = p.reverse := by
    cases h : p.reverse with
    | nil => rfl
    | cons c r =>
      have hc : isBlank c = false := hp c (by rw [← List.mem_reverse, h]; exact List.mem_cons_self)
      rw [List.dropWhile_cons, if_neg (by simp [hc])]
  rw [trimEnd, List.reverse_append, List.dropWhile_append, hkept, trimEnd]
  split
  · next h => rw [List.isEmpty_iff.mp h, List.reverse_reverse, List.reverse_nil, List.append_nil]
  · rw [List.reverse_append, List.reverse_reverse]

/-- Trimming takes nothing off a front without white space. -/
theorem trim_append {p : List Char} (hne : p ≠ []) (hp : ∀ c ∈ p, isBlank c = false)
    (s : List Char) : trim (p ++ s) = p ++ trimEnd s := by
  cases p with
  | nil => exact absurd rfl hne
  | cons c p =>
    have hc : isBlank c = false := hp c List.mem_cons_self
    rw [trim, List.cons_append, List.dropWhile_cons, if_neg (by simp [hc]), ← List.cons_append,
      trimEnd_append hp]

theorem exists_append_trimEnd (s : List Char) : ∃ b, Blank b ∧ s = trimEnd s ++ b := by
  refine ⟨(s.reverse.takeWhile isBlank).reverse, ?_, ?_⟩
  · exact Blank.reverse fun c hc => List.mem_takeWhile_imp hc
  · rw [trimEnd, ← List.reverse_append, List.takeWhile_append_dropWhile, List.reverse_reverse]

/-- Trimming takes white space off both ends. -/
theorem exists_append_trim (s : List Char) :
    ∃ b b', Blank b ∧ Blank b' ∧ s = b ++ (trim s ++ b') := by
  obtain ⟨b', hb', hs⟩ := exists_append_trimEnd (s.dropWhile isBlank)
  refine ⟨s.takeWhile isBlank, b', fun c hc => List.mem_takeWhile_imp hc, hb', ?_⟩
  rw [trim, ← hs, List.takeWhile_append_dropWhile]

theorem trim_trimEnd (s : List Char) : trim (trimEnd s) = trim s := by
  obtain ⟨b, hb, hs⟩ := exists_append_trimEnd s
  conv_rhs => rw [hs, trim_append_blank _ hb]

end Text

namespace Duration

open Decimal Text

/-! ## The grammar -/

/-- The texts of a unit. -/
inductive Unit.Spells : Unit → List Char → Prop
  /-- Milliseconds need no name. -/
  | unnamed : Spells .milliseconds []
  /-- Milliseconds. -/
  | milliseconds : Spells .milliseconds ['m', 's']
  /-- Seconds. -/
  | seconds : Spells .seconds ['s']
  /-- Minutes. -/
  | minutes : Spells .minutes ['m', 'i', 'n']
  /-- Hours. -/
  | hours : Spells .hours ['h']

/-- The texts of a number with a unit. -/
inductive Spells : Nat → Unit → List Char → Prop
  /-- Digits and a unit, with white space around each of them. -/
  | mk {u : Unit} {b b' b'' w : List Char} {ds : List Digit} :
      Blank b → ds ≠ [] → Blank b' → u.Spells w → Blank b'' →
      Spells (ofDigits ds) u (b ++ (digitsText ds ++ (b' ++ (w ++ b''))))

/-- The nanoseconds of a unit. -/
def Unit.nanos : Unit → Nat
  | .milliseconds => 1000000
  | .seconds => 1000000000
  | .minutes => 60 * 1000000000
  | .hours => 3600 * 1000000000

/-- Whether so many of a unit can be read: the number fits into 64 bits, and so do the seconds that
minutes and hours make. -/
def Unit.Fits (n : Nat) : Unit → Prop
  | .milliseconds | .seconds => n < 2 ^ 64
  | .minutes => n < 2 ^ 64 ∧ 60 * n < 2 ^ 64
  | .hours => n < 2 ^ 64 ∧ 3600 * n < 2 ^ 64

/-! ## Units -/

theorem Unit.ofText?_eq_some_iff {w : List Char} {u : Unit} :
    Unit.ofText? w = some u ↔ u.Spells w := by
  constructor
  · intro h
    unfold Unit.ofText? at h
    split at h
    · next hw =>
      cases h
      rcases hw with rfl | rfl
      · exact .unnamed
      · exact .milliseconds
    · split at h
      · next hw => subst hw; cases h; exact .seconds
      · split at h
        · next hw => subst hw; cases h; exact .minutes
        · split at h
          · next hw => subst hw; cases h; exact .hours
          · cases h
  · intro h
    cases h <;> decide

theorem ofSeconds_eq (n k : Nat) : ofSeconds (n * k) = ⟨n * (k * 1000000000)⟩ := by
  rw [ofSeconds, ofParts, Nat.add_zero, Nat.mul_assoc]

theorem checkedSeconds_eq_some_iff {n k : Nat} {d : Duration} :
    checkedSeconds (n * k) = some d ↔ k * n < 2 ^ 64 ∧ d = ⟨n * (k * 1000000000)⟩ := by
  rw [checkedSeconds, ofSeconds_eq, Nat.mul_comm k n]
  split
  · next h => simp [h, eq_comm]
  · next h => simp [h]

theorem ofUnit?_eq_some_iff {n : Nat} (hn : n < 2 ^ 64) {u : Unit} {d : Duration} :
    ofUnit? n u = some d ↔ u.Fits n ∧ d = ⟨n * u.nanos⟩ := by
  cases u with
  | milliseconds =>
    simp only [ofUnit?, ofMillis, Unit.Fits, Unit.nanos, hn, true_and, Option.some.injEq, eq_comm]
  | seconds =>
    simp only [ofUnit?, ofSeconds, ofParts, Nat.add_zero, Unit.Fits, Unit.nanos, hn, true_and,
      Option.some.injEq, eq_comm]
  | minutes => simp only [ofUnit?, checkedSeconds_eq_some_iff, Unit.Fits, Unit.nanos, hn, true_and]
  | hours => simp only [ofUnit?, checkedSeconds_eq_some_iff, Unit.Fits, Unit.nanos, hn, true_and]

theorem Unit.Fits.lt {n : Nat} {u : Unit} (h : u.Fits n) : n < 2 ^ 64 := by
  cases u with
  | milliseconds | seconds => exact h
  | minutes | hours => exact h.1

/-! ## The parts of a written duration -/

theorem isBlank_char (d : Digit) : isBlank d.char = false := by
  revert d
  decide

theorem isBlank_digitsText (ds : List Digit) : ∀ c ∈ digitsText ds, isBlank c = false := by
  intro c hc
  obtain ⟨d, -, rfl⟩ := List.mem_map.mp hc
  exact isBlank_char d

theorem stopsDigits_append {r s : List Char} (hr : StopsDigits r) (hs : StopsDigits s) :
    StopsDigits (r ++ s) := by
  cases r with
  | nil => exact hs
  | cons c r => exact hr

theorem stopsDigits_blank {b : List Char} (hb : Blank b) : StopsDigits b := by
  intro c hc
  cases hdigit : Digit.ofChar? c with
  | none => rfl
  | some d =>
    have hblank := hb c (List.mem_of_mem_head? hc)
    rw [Digit.eq_char_of_ofChar? hdigit, isBlank_char] at hblank
    cases hblank

/-- No name of a unit starts with a digit, and none has white space at its ends. -/
theorem Unit.Spells.stopsDigits {u : Unit} {w : List Char} (h : u.Spells w) : StopsDigits w := by
  intro c hc
  cases h <;> cases hc <;> rfl

theorem Unit.Spells.trim_eq {u : Unit} {w : List Char} (h : u.Spells w) : trim w = w := by
  cases h <;> decide

/-- The end of a text is trimmed to a front part of it. -/
theorem stopsDigits_trimEnd {s : List Char} (h : StopsDigits s) : StopsDigits (trimEnd s) := by
  obtain ⟨b, -, hs⟩ := exists_append_trimEnd s
  intro c hc
  refine h c ?_
  rw [hs, List.head?_append, hc]
  rfl

/-! ## Reading by the grammar -/

/-- Trimming leaves the digits of a written duration in front, and then the unit. -/
theorem Spells.parts {n : Nat} {u : Unit} {text : List Char} (h : Spells n u text) :
    ∃ ds r, ds ≠ [] ∧ spanDigits (trim text) = (ds, r) ∧ ofDigits ds = n ∧ u.Spells (trim r) := by
  obtain @⟨u, b, b', b'', w, ds, hb, hds, hb', hw, hb''⟩ := h
  have hstops : StopsDigits (b' ++ (w ++ b'')) :=
    stopsDigits_append (stopsDigits_blank hb')
      (stopsDigits_append hw.stopsDigits (stopsDigits_blank hb''))
  have htrim : trim (digitsText ds ++ (b' ++ (w ++ b''))) =
      digitsText ds ++ trimEnd (b' ++ (w ++ b'')) :=
    trim_append (by simpa [digitsText] using hds) (isBlank_digitsText ds) _
  refine ⟨ds, trimEnd (b' ++ (w ++ b'')), hds, ?_, rfl, ?_⟩
  · rw [trim_blank_append hb, htrim, spanDigits_digitsText ds _ (stopsDigits_trimEnd hstops)]
  · rw [trim_trimEnd, trim_blank_append hb', trim_append_blank _ hb'', hw.trim_eq]
    exact hw

/-- Whatever has digits in front after trimming, and then a unit, is a written duration. -/
theorem spells_of_parts {u : Unit} {text r : List Char} {ds : List Digit} (hds : ds ≠ [])
    (hspan : spanDigits (trim text) = (ds, r)) (hu : u.Spells (trim r)) :
    Spells (ofDigits ds) u text := by
  obtain ⟨b, b₁, hb, hb₁, htext⟩ := exists_append_trim text
  obtain ⟨b', b₂, hb', hb₂, hr⟩ := exists_append_trim r
  have h : Spells (ofDigits ds) u (b ++ (digitsText ds ++ (b' ++ (trim r ++ (b₂ ++ b₁))))) :=
    .mk hb hds hb' hu (hb₂.append hb₁)
  rw [htext, eq_append_of_spanDigits hspan]
  conv => rhs; rw [hr]
  simpa only [List.append_assoc] using h

/-- A text shows a duration exactly if it spells a number and a unit that fit, and the duration is
then that many of the unit, exactly. -/
theorem parse?_eq_some_iff (text : List Char) (d : Duration) :
    parse? text = some d ↔
      ∃ n u, Spells n u text ∧ u.Fits n ∧ d = ⟨n * u.nanos⟩ := by
  constructor
  · intro h
    unfold parse? at h
    split at h
    · cases h
    · next ds r hds hspan =>
      dsimp only at h
      split at h
      · next hn =>
        obtain ⟨u, hu, h⟩ := Option.bind_eq_some_iff.mp h
        obtain ⟨hfits, rfl⟩ := (ofUnit?_eq_some_iff hn).mp h
        have hne : ds ≠ [] := fun hnil => hds hnil
        exact ⟨_, u, spells_of_parts hne hspan (Unit.ofText?_eq_some_iff.mp hu), hfits, rfl⟩
      · cases h
  · rintro ⟨n, u, hspells, hfits, rfl⟩
    obtain ⟨ds, r, hds, hspan, rfl, hu⟩ := hspells.parts
    unfold parse?
    rw [hspan]
    cases ds with
    | nil => exact absurd rfl hds
    | cons d ds =>
      have hvalue := (ofUnit?_eq_some_iff hfits.lt).mpr ⟨hfits, rfl⟩
      simp only [if_pos hfits.lt, Unit.ofText?_eq_some_iff.mpr hu, Option.bind_some, hvalue]

example : parse? " 007 min\n".toList = some (ofSeconds 420) := by decide

end Duration
end Metering
