import Metering.Proofs.Json.Range
import Metering.Proofs.Payload.NormalForm

/-!
# Proofs: what is read is in normal form

A text need not have been written by `encode` to be read. It may spell numbers in odd ways, give
values to keys that contradict each other, or leave fields out. What it is read as is nevertheless a
snapshot in normal form, so that nothing is lost when it is written and read once more: a load that
is read is finite, and the outcome is taken from the stop time wherever no path tells it.
-/

namespace Metering

namespace Json

theorem of_readNumber {s r : List Char} {x : Number} (h : readNumber s = .ok (x, r)) :
    ∃ n : Numeral, n.number? = some x := by
  obtain ⟨⟨n, r'⟩, -, h⟩ := of_bind_eq_ok h
  cases hn : n.number? with
  | none =>
    simp only [hn] at h
    cases h
  | some y =>
    simp only [hn] at h
    cases h
    exact ⟨n, hn⟩

theorem of_readNumberAs {expected : Expected} {s r : List Char} {x : Number}
    (h : readNumberAs expected s = .ok (x, r)) : ∃ n : Numeral, n.number? = some x := by
  unfold readNumberAs at h
  split at h
  · cases h
  · split at h
    · exact of_readNumber h
    · cases h

theorem isFinite_of_readReal {s r : List Char} {x : Binary64} (h : readReal s = .ok (x, r)) :
    x.isFinite = true := by
  obtain ⟨⟨y, r'⟩, hread, h⟩ := of_bind_eq_ok h
  obtain ⟨n, hn⟩ := of_readNumberAs hread
  cases h
  exact Numeral.isFinite_of_number? hn

theorem of_readOptional {α : Type} {read : Reader α} {s r : List Char} {x : α}
    (h : readOptional read s = .ok (some x, r)) : read s = .ok (x, r) := by
  unfold readOptional at h
  split at h
  · obtain ⟨r', -, h⟩ := of_bind_eq_ok h
    cases h
  · obtain ⟨⟨y, r'⟩, hread, h⟩ := of_bind_eq_ok h
    cases h
    exact hread

/-- What every member keeps is kept by all members of an object. -/
theorem foldMembers_keeps {σ : Type} {member : σ → String → Reader σ} {P : σ → Prop}
    (hmember : ∀ g k s g' r, P g → member g k s = .ok (g', r) → P g') (n : Nat) (isFirst : Bool)
    (g : σ) (s : List Char) {g' : σ} {r : List Char} (hg : P g)
    (h : foldMembers member n isFirst g s = .ok (g', r)) : P g' := by
  induction n generalizing isFirst g s with
  | zero => cases h
  | succ n ih =>
    obtain ⟨⟨k, r₁⟩, -, h⟩ := of_bind_eq_ok h
    cases k with
    | none =>
      cases h
      exact hg
    | some k =>
      obtain ⟨⟨g₁, r₂⟩, hread, h⟩ := of_bind_eq_ok h
      exact ih false g₁ r₂ (hmember g k r₁ g₁ r₂ hg hread) h

end Json

namespace Payload

open Json

/-! ## The load -/

/-- No field that is read makes the load infinite. -/
theorem isFinite_load_readField {p p' : Payload} {f : Field} {s r : List Char}
    (hp : p.load.isFinite = true) (h : readField p f s = .ok (p', r)) :
    p'.load.isFinite = true := by
  cases f
  case load =>
    obtain ⟨⟨x, r'⟩, hread, h⟩ := of_bind_eq_ok h
    cases h
    cases x with
    | none => exact (by decide : Binary64.zero.isFinite = true)
    | some x => exact isFinite_of_readReal (of_readOptional hread)
  all_goals
    obtain ⟨⟨x, r'⟩, -, h⟩ := of_bind_eq_ok h
    cases h
    exact hp

theorem isFinite_load_readMember {g g' : Gathered} {key : String} {s r : List Char}
    (hg : g.payload.load.isFinite = true) (h : readMember g key s = .ok (g', r)) :
    g'.payload.load.isFinite = true := by
  unfold readMember at h
  split at h
  · obtain ⟨r₁, -, h⟩ := of_bind_eq_ok h
    obtain ⟨r₂, -, h⟩ := of_bind_eq_ok h
    cases h
    exact hg
  · split at h
    · cases h
    · obtain ⟨r₁, -, h⟩ := of_bind_eq_ok h
      obtain ⟨⟨p, r₂⟩, hread, h⟩ := of_bind_eq_ok h
      cases h
      exact isFinite_load_readField hg hread

theorem isFinite_load_readElements {p p' : Payload} {isFirst : Bool} {fs : List Field}
    {s r : List Char} (hp : p.load.isFinite = true)
    (h : readElements p isFirst fs s = .ok (p', r)) : p'.load.isFinite = true := by
  induction fs generalizing p isFirst s with
  | nil =>
    cases h
    exact hp
  | cons f fs ih =>
    obtain ⟨next, -, h⟩ := of_bind_eq_ok h
    cases next with
    | none =>
      cases h
      exact hp
    | some s₁ =>
      obtain ⟨⟨p₁, s₂⟩, hread, h⟩ := of_bind_eq_ok h
      exact ih (isFinite_load_readField hp hread) h

theorem isFinite_load_read {p : Payload} {s r : List Char} (h : read s = .ok (p, r)) :
    p.load.isFinite = true := by
  have hdefault : ({} : Payload).load.isFinite = true := by decide
  unfold read at h
  split at h
  · cases h
  · obtain ⟨⟨g, r'⟩, hread, h⟩ := of_bind_eq_ok h
    cases h
    exact foldMembers_keeps (P := fun g => g.payload.load.isFinite = true)
      (fun _ _ _ _ _ => isFinite_load_readMember) _ _ _ _ hdefault hread
  · obtain ⟨⟨p', r'⟩, hread, h⟩ := of_bind_eq_ok h
    obtain ⟨r'', -, h⟩ := of_bind_eq_ok h
    cases h
    exact isFinite_load_readElements hdefault hread
  · cases h

/-! ## The outcome -/

theorem outcome_eq_unset {p : Payload} (h : p.outcome = .unset) : p.stopTime = 0 := by
  unfold outcome at h
  split at h
  · cases h
  · cases h
  · split at h
    · cases h
    · next hstop => simp_all

theorem outcome_eq_ok_none {p : Payload} (h : p.outcome = .ok none) : p.stopTime ≠ 0 := by
  unfold outcome at h
  split at h
  · cases h
  · cases h
  · split at h
    · next hstop =>
      injection h with hpath
      simpa [hpath] using hstop
    · cases h

end Payload

namespace Snapshot

/-- A snapshot that was read tells the payload that was read. -/
theorem of_decode {text : String} {d : Snapshot} (h : decode text = .ok d) :
    ∃ p : Payload, d = p.toSnapshot ∧ p.load.isFinite = true := by
  simp only [decode, decodeChars] at h
  split at h
  · next p hparse =>
    cases h
    obtain ⟨⟨q, r⟩, hread, hrest⟩ := Json.of_bind_eq_ok hparse
    refine ⟨p, rfl, ?_⟩
    dsimp only at hrest
    split at hrest
    · cases hrest
      exact Payload.isFinite_load_read hread
    · cases hrest
  · cases h

/-- Whatever text a snapshot is read from, it is read again from its own text: its load is finite,
no key of its context occurs twice, and its outcome does not contradict its stop time. -/
theorem decode_reaches_fixed_point {text : String} {d : Snapshot} (h : decode text = .ok d) :
    (∃ d', decode d.encode = .ok d' ∧ d'.same d = true) ∧
      d.metrics.load.isFinite = true ∧
      d.context.keys.Nodup ∧
      (d.outcome = .unset → d.stopTime = 0) ∧
      (d.outcome = .ok none → d.stopTime ≠ 0) := by
  obtain ⟨p, rfl, hfinite⟩ := of_decode h
  have hunset : p.toSnapshot.outcome = .unset → p.toSnapshot.stopTime = 0 :=
    Payload.outcome_eq_unset
  have hok : p.toSnapshot.outcome = .ok none → p.toSnapshot.stopTime ≠ 0 :=
    Payload.outcome_eq_ok_none
  refine ⟨⟨_, decode_encode _, ?_⟩, hfinite, p.toSnapshot.context.nodup_keys, hunset, hok⟩
  rw [same_norm_plain_iff, settled_eq_iff]
  exact ⟨hfinite, fun h => h.2 (hunset h.1), fun h => hok h.1 h.2⟩

/-- A text of another hand, with a key that is given twice, a message without a failure, a value
that nobody asked for and a load with more digits than are needed. -/
theorem decode_reaches_fixed_point_foreign :
    let text := " \x7b\"t2\": 5, \"fm\": \"late\",
      \"ctx\": \x7b\"a\": \"1\", \"b\": \"2\", \"a\": \"3\"\x7d,
      \"zz\": [1, \x7b\x7d], \"sl\": 0.50E0\x7d"
    let d : Snapshot :=
      { stopTime := 5, outcome := .ok none
        context := .ofList [("a", "3"), ("b", "2")]
        metrics := { Metrics.zero with load := ⟨0x3fe0000000000000⟩ } }
    decode text = .ok d ∧ ∃ d', decode d.encode = .ok d' ∧ d'.same d = true := by
  intro text d
  have hread : decode text = .ok d := by decide +kernel
  exact ⟨hread, (decode_reaches_fixed_point hread).1⟩

end Snapshot
end Metering
