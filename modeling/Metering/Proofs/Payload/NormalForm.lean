import Metering.Proofs.Payload.Fields

/-!
# Proofs: the normal form of a snapshot

A snapshot does not come back unchanged from its text in all cases. A success without a path shows
no key of its own, so the stop time alone says whether such an operation has ended; and a load that
is not finite has no text. The normal form settles both. It is what is read back, and it has the
same text as the snapshot, so nothing changes any more on the second way.

The two zeros of a load are the same number but not the same bits: minus zero is left out like any
other default and comes back as plus zero.
-/

namespace Metering

/-- The number with a zero that has no sign. -/
def Binary64.plain (x : Binary64) : Binary64 := if x.isZero then .zero else x

/-- The outcome that is read back: the stop time says whether an operation without a path has
ended. -/
def Outcome.settled (stopTime : UInt64) : Outcome → Outcome
  | .unset => if stopTime = 0 then .unset else .ok none
  | .ok none => if stopTime = 0 then .unset else .ok none
  | outcome => outcome

namespace Snapshot

/-- The normal form of a snapshot. -/
def norm (s : Snapshot) : Snapshot :=
  { s with
    outcome := s.outcome.settled s.stopTime
    metrics := { s.metrics with
      load := if s.metrics.load.isFinite then s.metrics.load else .zero } }

end Snapshot

namespace Binary64

theorem isZero_plain (x : Binary64) : x.plain.isZero = x.isZero := by
  unfold plain
  split
  · next h => rw [h]; rfl
  · rfl

theorem isFinite_of_isZero {x : Binary64} (h : x.isZero) : x.isFinite := by
  simp only [isZero, beq_iff_eq] at h
  simp only [isFinite, h]
  decide

theorem isNaN_of_isFinite {x : Binary64} (h : x.isFinite) : x.isNaN = false := by
  simp only [isFinite, isNaN, decide_eq_true_eq, decide_eq_false_iff_not] at h ⊢
  omega

theorem isFinite_plain {x : Binary64} (h : x.isFinite) : x.plain.isFinite := by
  unfold plain
  split
  · decide
  · exact h

/-- The sign of a zero does not count. -/
theorem same_plain (x : Binary64) (h : x.isFinite) : x.plain.same x = true := by
  have hplain := isNaN_of_isFinite (isFinite_plain h)
  simp only [same, hplain, isNaN_of_isFinite h, Bool.not_false, Bool.true_and, isZero_plain,
    Bool.and_self]
  unfold plain
  split
  · next hzero => simp [hzero]
  · simp

/-- Only a finite number is the same as a finite one. -/
theorem isFinite_of_same {x y : Binary64} (hx : x.isFinite) (h : x.same y) : y.isFinite := by
  simp only [same, Bool.and_eq_true, Bool.or_eq_true, beq_iff_eq] at h
  rcases h.2 with rfl | ⟨-, hzero⟩
  · exact hx
  · exact isFinite_of_isZero hzero

end Binary64

namespace Payload

/-- The payload with a zero load that has no sign. -/
def plain (p : Payload) : Payload := { p with load := p.load.plain }

/-- The sign of a zero load does not show in the text. -/
theorem text_plain (p : Payload) : p.plain.text = p.text := by
  have hvalue (f : Field) : p.plain.value? f = p.value? f := by
    cases f
    case load =>
      by_cases h : p.load.isZero
      · simp [value?, plain, Binary64.isZero_plain, h]
      · simp [value?, plain, Binary64.plain, h]
    all_goals rfl
  simp only [text, members, hvalue]

theorem hasPlainLoad_plain (p : Payload) (h : p.load.isFinite) : p.plain.HasPlainLoad := by
  refine ⟨Binary64.isFinite_plain h, ?_⟩
  intro hzero
  rw [plain, Binary64.isZero_plain] at hzero
  simp only [plain, Binary64.plain, if_pos hzero]

/-- A payload with a finite load is read from its text, up to the sign of a zero load. -/
theorem parse_text_plain (p : Payload) (h : p.load.isFinite) : parse p.text = .ok p.plain := by
  rw [← text_plain, parse_text p.plain (p.hasPlainLoad_plain h)]

theorem isFinite_load_ofSnapshot (s : Snapshot) : (ofSnapshot s).load.isFinite := by
  simp only [ofSnapshot]
  split
  · next h => exact h
  · decide

theorem outcome_ofSnapshot (s : Snapshot) :
    (ofSnapshot s).outcome = s.outcome.settled s.stopTime := by
  cases h : s.outcome with
  | ok path => cases path <;> simp [ofSnapshot, outcome, Outcome.settled, h]
  | _ => simp [ofSnapshot, outcome, Outcome.settled, h]

end Payload

namespace Snapshot

/-- A snapshot and its normal form have the same payload. -/
theorem ofSnapshot_norm (s : Snapshot) : Payload.ofSnapshot s.norm = Payload.ofSnapshot s := by
  have hload : s.norm.metrics.load.isFinite := Payload.isFinite_load_ofSnapshot s
  cases s with
  | mk _ _ _ _ _ _ _ _ stopTime _ _ _ _ outcome _ _ =>
    simp only [Payload.ofSnapshot, if_pos hload]
    simp only [norm, Payload.mk.injEq, true_and]
    cases outcome with
    | unset => by_cases h : stopTime = 0 <;> simp [Outcome.settled, h]
    | ok path =>
      cases path with
      | none => by_cases h : stopTime = 0 <;> simp [Outcome.settled, h]
      | some path => simp [Outcome.settled]
    | _ => simp [Outcome.settled]

theorem ofSnapshot_plain (s : Snapshot) (h : s.metrics.load.isFinite) :
    Payload.ofSnapshot { s with metrics := { s.metrics with load := s.metrics.load.plain } } =
      (Payload.ofSnapshot s).plain := by
  simp only [Payload.ofSnapshot, Payload.plain, if_pos h, if_pos (Binary64.isFinite_plain h)]

/-- What is read back of a snapshot is its normal form, up to the sign of a zero load. -/
theorem decode_encode (s : Snapshot) :
    decode s.encode =
      .ok { s.norm with metrics := { s.norm.metrics with load := s.norm.metrics.load.plain } } := by
  have hparse := Payload.parse_text_plain _ (Payload.isFinite_load_ofSnapshot s)
  have houtcome : (Payload.ofSnapshot s).plain.outcome = s.outcome.settled s.stopTime :=
    Payload.outcome_ofSnapshot s
  simp only [decode, encode, String.toList_ofList, decodeChars, hparse, Payload.toSnapshot,
    houtcome]
  rfl

/-- A snapshot that is its own normal form and whose load is not minus zero is read back as it
is. -/
theorem decode_encode_of_norm (s : Snapshot) (hnorm : s.norm = s)
    (hload : s.metrics.load.plain = s.metrics.load) : decode s.encode = .ok s := by
  rw [decode_encode, hnorm, hload]

/-! ## Numeric equality -/

theorem settled_eq_iff (s : Snapshot) :
    s.outcome.settled s.stopTime = s.outcome ↔
      ¬ (s.outcome = .unset ∧ s.stopTime ≠ 0) ∧ ¬ (s.outcome = .ok none ∧ s.stopTime = 0) := by
  cases h : s.outcome with
  | unset => by_cases h0 : s.stopTime = 0 <;> simp [Outcome.settled, h0]
  | ok path =>
    cases path with
    | none => by_cases h0 : s.stopTime = 0 <;> simp [Outcome.settled, h0]
    | some path => simp [Outcome.settled]
  | _ => simp [Outcome.settled]

/-- Snapshots are numerically equal if their loads are and nothing else differs. -/
theorem same_iff (a b : Snapshot) :
    a.same b = true ↔
      ({ a with metrics := { a.metrics with load := b.metrics.load } } : Snapshot) = b ∧
        a.metrics.load.same b.metrics.load = true := by
  cases a with
  | mk _ _ _ _ _ _ _ _ _ _ _ _ _ _ _ ma =>
    cases b with
    | mk _ _ _ _ _ _ _ _ _ _ _ _ _ _ _ mb =>
      cases ma
      cases mb
      simp [same]

/-- A decoded snapshot is numerically equal to its original if the original has a finite load and
its outcome agrees with its stop time. -/
theorem same_norm_plain_iff (s : Snapshot) :
    Snapshot.same
        { s.norm with metrics := { s.norm.metrics with load := s.norm.metrics.load.plain } } s =
          true ↔
      s.metrics.load.isFinite = true ∧ s.outcome.settled s.stopTime = s.outcome := by
  have hrest : ({ s.norm with metrics := s.metrics } : Snapshot) = s ↔
      s.outcome.settled s.stopTime = s.outcome := by
    cases s
    simp [norm]
  have hload : s.norm.metrics.load.plain.same s.metrics.load = true ↔
      s.metrics.load.isFinite = true := by
    constructor
    · have hfinite := Binary64.isFinite_plain (Payload.isFinite_load_ofSnapshot s)
      exact fun h => Binary64.isFinite_of_same hfinite h
    · intro h
      simp only [norm, if_pos h]
      exact Binary64.same_plain _ h
  rw [same_iff]
  exact (and_congr hrest hload).trans and_comm

/-- Every snapshot is read back from its text as its normal form, and the normal form has the same
text. So a text that was written once is written again exactly. The snapshot itself comes back if
and only if its load is finite and its stop time does not contradict its outcome. -/
theorem decode_encode_normal_form (s : Snapshot) :
    s.norm.encode = s.encode ∧
      ∃ d, decode s.encode = .ok d ∧ d.same s.norm = true ∧ d.encode = s.encode ∧
        (d.same s = true ↔
          s.metrics.load.isFinite = true ∧
            ¬ (s.outcome = .unset ∧ s.stopTime ≠ 0) ∧
            ¬ (s.outcome = .ok none ∧ s.stopTime = 0)) := by
  have hnorm : s.norm.encode = s.encode := by rw [encode, ofSnapshot_norm, encode]
  have hfinite : s.norm.metrics.load.isFinite := Payload.isFinite_load_ofSnapshot s
  refine ⟨hnorm, _, decode_encode s, ?_, ?_, ?_⟩
  · rw [same_iff]
    exact ⟨rfl, Binary64.same_plain _ hfinite⟩
  · rw [encode, ofSnapshot_plain s.norm hfinite, Payload.text_plain]
    exact hnorm
  · rw [same_norm_plain_iff, settled_eq_iff]

end Snapshot
end Metering
