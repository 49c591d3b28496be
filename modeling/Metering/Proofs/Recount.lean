import Metering.Proofs.Deeds

/-!
# Proofs: a meter told from what was done to it

Nothing but the deeds on a meter and the clock at each of them decides what its snapshot shows. Each
function below tells one part of the snapshot from the list of deeds, without a meter: the clock at
the last start, the last resolution, the iterations in exact arithmetic up to the largest word, and
so on. A meter that follows its deeds goes on to do so, whatever is done to it next.
-/

namespace Metering

/-- What was done to a meter and what the clock showed, the latest first. -/
abbrev Deeds := List (UInt64 × Deed)

/-- Whether a period lies between two times. -/
def Duration.hasPassed (period : Duration) (last now : UInt64) : Bool :=
  decide (period.nanos = 0) || decide (last.toNat + period.nanos ≤ now.toNat)

namespace Deeds

/-- Whether the operation was started. -/
def isStarted (ds : Deeds) : Bool := ds.any (·.2 == .call .start)

/-- The clock at the last start; zero if there is none. -/
def startTime : Deeds → UInt64
  | [] => 0
  | (now, .call .start) :: _ => now
  | _ :: ds => startTime ds

/-- The path that was set last. -/
def setPath? : Deeds → Option String
  | [] => none
  | (_, .call (.setPath path)) :: _ => some path
  | _ :: ds => setPath? ds

/-- The last resolution, with the clock. A success without a path of its own takes the one that was
set last before it. -/
def resolution? : Deeds → Option (UInt64 × Outcome)
  | [] => none
  | (now, d) :: ds =>
    ((d.outcome? (setPath? ds) (resolution? ds).isSome).map (now, ·)).or (resolution? ds)

/-- Whether the operation was resolved. -/
def isResolved (ds : Deeds) : Bool := ds.resolution?.isSome

/-- The clock at the last resolution; zero if there is none. -/
def stopTime (ds : Deeds) : UInt64 := (ds.resolution?.map Prod.fst).getD 0

/-- The outcome of the last resolution. -/
def outcome (ds : Deeds) : Outcome := (ds.resolution?.map Prod.snd).getD .unset

/-- The iterations that were counted, up to the largest word. -/
def iteration : Deeds → Nat
  | [] => 0
  | (_, .call .increment) :: ds => min (iteration ds + 1) (2 ^ 64 - 1)
  | (_, .call (.incrementBy n)) :: ds => min (iteration ds + n.toNat) (2 ^ 64 - 1)
  | (_, .call (.incrementTo n)) :: ds => max (iteration ds) n.toNat
  | _ :: ds => iteration ds

/-- The last time limit other than zero in nanoseconds, up to the largest word. -/
def timeLimit : Deeds → Nat
  | [] => 0
  | (_, .call (.limit d)) :: ds =>
    if d.nanos = 0 then timeLimit ds else min d.nanos (2 ^ 64 - 1)
  | (_, .call (.limitMillis n)) :: ds =>
    if n = 0 then timeLimit ds else min (n.toNat * 1000000) (2 ^ 64 - 1)
  | _ :: ds => timeLimit ds

/-- The last number of expected iterations other than zero. -/
def expected : Deeds → UInt64
  | [] => 0
  | (_, .call (.expect n)) :: ds => if n = 0 then expected ds else n
  | _ :: ds => expected ds

/-- The last description. -/
def description : Deeds → Option String
  | [] => none
  | (_, .call (.description text)) :: _ => some text
  | _ :: ds => description ds

/-- What the context has become. -/
def context (c : Context) : Deeds → Context
  | [] => c
  | (_, .call (.attach name value)) :: ds =>
    (context c ds).insert (attachedName name) value.display
  | (_, .call (.flag name)) :: ds => (context c ds).insert (attachedName name) ""
  | (_, .call (.attachOptional name value)) :: ds =>
    (context c ds).insert (attachedName name) (value.getD absentValue)
  | (_, .call (.flagIf true name)) :: ds => (context c ds).insert (attachedName name) ""
  | (_, .call (.flagEither condition yes no)) :: ds =>
    (context c ds).insert (attachedName (if condition then yes else no)) ""
  | (_, .call (.detach name)) :: ds => (context c ds).erase (attachedName name)
  | _ :: ds => context c ds

/-- The clock at the last start or report of progress; zero if there is none. A call for progress is
ignored unless the operation is running and the period has passed since then. -/
def lastReport (period : Duration) : Deeds → UInt64
  | [] => 0
  | (now, .call .start) :: _ => now
  | (now, .call .progress) :: ds =>
    if isStarted ds && !isResolved ds && period.hasPassed (lastReport period ds) now then now
    else lastReport period ds
  | _ :: ds => lastReport period ds

/-- Whether a call for progress is not ignored. -/
def heeds (period : Duration) (ds : Deeds) (now : UInt64) : Bool :=
  ds.isStarted && !ds.isResolved && period.hasPassed (ds.lastReport period) now

/-- Whether a deed is a start, a resolution or a call for progress that is not ignored. -/
def marksTime (period : Duration) (ds : Deeds) (now : UInt64) : Deed → Bool
  | .call .start => true
  | .call .progress => ds.heeds period now
  | d => (d.outcome? (setPath? ds) (isResolved ds)).isSome

/-- The clock at the last start, resolution or report of progress, or else at the creation. -/
def lastTime (period : Duration) (birth : UInt64) : Deeds → UInt64
  | [] => birth
  | (now, d) :: ds => if marksTime period ds now d then now else lastTime period birth ds

/-! ## What times tell -/

/-- Whether the clock never showed zero. -/
def Timed (ds : Deeds) : Prop := ∀ entry ∈ ds, entry.1 ≠ 0

variable {ds : Deeds} {period : Duration}

theorem Timed.of_cons {entry : UInt64 × Deed} (h : Timed (entry :: ds)) :
    entry.1 ≠ 0 ∧ Timed ds :=
  List.forall_mem_cons.mp h

theorem startTime_cons {now : UInt64} {d : Deed} (hd : d ≠ .call .start) :
    startTime ((now, d) :: ds) = startTime ds := by
  rw [startTime]
  rintro now' h
  cases h
  exact hd rfl

theorem isStarted_cons {now : UInt64} {d : Deed} :
    isStarted ((now, d) :: ds) = (d == .call .start || isStarted ds) := rfl

theorem startTime_ne_zero_iff (h : ds.Timed) : ds.startTime ≠ 0 ↔ ds.isStarted = true := by
  induction ds with
  | nil => simp [startTime, isStarted]
  | cons entry ds ih =>
    obtain ⟨now, d⟩ := entry
    obtain ⟨hnow, hds⟩ := h.of_cons
    by_cases hd : d = .call .start
    · subst hd
      exact iff_of_true hnow rfl
    · rw [startTime_cons hd, isStarted_cons, beq_eq_false_iff_ne.mpr hd, Bool.false_or]
      exact ih hds

/-- Once the operation was started, the last report has a time. -/
theorem lastReport_ne_zero (h : ds.Timed) (hstarted : ds.isStarted = true) :
    ds.lastReport period ≠ 0 := by
  induction ds with
  | nil => cases hstarted
  | cons entry ds ih =>
    obtain ⟨now, d⟩ := entry
    obtain ⟨hnow, hds⟩ := h.of_cons
    unfold lastReport
    split
    · next h => cases h
    · next h =>
      cases h
      exact hnow
    · next h =>
      cases h
      split
      · exact hnow
      · exact ih hds hstarted
    · next hstart _ h =>
      cases h
      refine ih hds ?_
      have hd : d ≠ .call .start := fun hd => hstart now (by rw [hd])
      rwa [isStarted_cons, beq_eq_false_iff_ne.mpr hd, Bool.false_or] at hstarted

theorem resolution?_cons {now : UInt64} {d : Deed} :
    resolution? ((now, d) :: ds) =
      ((d.outcome? (setPath? ds) (isResolved ds)).map (now, ·)).or ds.resolution? := rfl

theorem resolution?_cons_some {now : UInt64} {d : Deed} {outcome : Outcome}
    (h : d.outcome? (setPath? ds) (isResolved ds) = some outcome) :
    resolution? ((now, d) :: ds) = some (now, outcome) := by
  rw [resolution?_cons, h]
  rfl

theorem resolution?_cons_none {now : UInt64} {d : Deed}
    (h : d.outcome? (setPath? ds) (isResolved ds) = none) :
    resolution? ((now, d) :: ds) = ds.resolution? := by
  rw [resolution?_cons, h]
  rfl

/-- What a resolution leaves behind is an outcome, at a time. -/
theorem of_resolution? (h : ds.Timed) {now : UInt64} {outcome : Outcome}
    (hds : ds.resolution? = some (now, outcome)) : now ≠ 0 ∧ outcome.isResolved = true := by
  induction ds with
  | nil => cases hds
  | cons entry ds ih =>
    obtain ⟨now', d⟩ := entry
    obtain ⟨hnow, htimed⟩ := h.of_cons
    cases houtcome : d.outcome? (setPath? ds) (isResolved ds) with
    | none =>
      rw [resolution?_cons_none houtcome] at hds
      exact ih htimed hds
    | some outcome' =>
      rw [resolution?_cons_some houtcome] at hds
      cases hds
      exact ⟨hnow, Deed.isResolved_of_outcome? houtcome⟩

theorem stopTime_ne_zero_iff (h : ds.Timed) : ds.stopTime ≠ 0 ↔ ds.isResolved = true := by
  unfold stopTime isResolved
  cases hds : ds.resolution? with
  | none => simp
  | some r => simpa using (of_resolution? h hds).1

theorem isResolved_outcome (h : ds.Timed) : ds.outcome.isResolved = ds.isResolved := by
  unfold outcome isResolved
  cases hds : ds.resolution? with
  | none => rfl
  | some r => simpa using (of_resolution? h hds).2

end Deeds

/-! ## Following -/

/-- Whether a meter is what the deeds on it have made of the meter `m₀` that it was at first, in a
session with a period between reports of progress. -/
structure Meter.Follows (m m₀ : Meter) (period : Duration) (ds : Deeds) : Prop where
  /-- The session that the meter belongs to stays. -/
  home : m.session = m₀.session
  /-- The identity of the session stays. -/
  session : m.snapshot.session = m₀.snapshot.session
  /-- The category stays. -/
  category : m.snapshot.category = m₀.snapshot.category
  /-- The operation stays. -/
  operation : m.snapshot.operation = m₀.snapshot.operation
  /-- The parent stays. -/
  parent : m.snapshot.parent = m₀.snapshot.parent
  /-- The position stays. -/
  position : m.snapshot.position = m₀.snapshot.position
  /-- The time of creation stays. -/
  createTime : m.snapshot.createTime = m₀.snapshot.createTime
  /-- The description is the one that was set last. -/
  description : m.snapshot.description = ds.description
  /-- The start is the last one. -/
  startTime : m.snapshot.startTime = ds.startTime
  /-- The stop is the last resolution. -/
  stopTime : m.snapshot.stopTime = ds.stopTime
  /-- The outcome is that of the last resolution. -/
  outcome : m.snapshot.outcome = ds.outcome
  /-- The last change is the last deed that counts as one. -/
  lastTime : m.snapshot.lastTime = ds.lastTime period m₀.snapshot.createTime
  /-- The limit is the one that was set last. -/
  timeLimit : m.snapshot.timeLimit.toNat = ds.timeLimit
  /-- The iterations are added up. -/
  iteration : m.snapshot.iteration.toNat = ds.iteration
  /-- The expected iterations are those that were set last. -/
  expected : m.snapshot.expected = ds.expected
  /-- The context is what the deeds have made of it. -/
  context : m.snapshot.context = ds.context m₀.snapshot.context
  /-- The path of a success is the one that was set last. -/
  okPath : m.okPath = ds.setPath?
  /-- Progress was reported last where the deeds tell so. -/
  lastProgress : m.lastProgress = ds.lastReport period

namespace Meter.Follows

open Deeds

variable {m₀ m : Meter} {period : Duration} {ds : Deeds}

theorem withMetrics (h : m.Follows m₀ period ds) (metrics : Metrics) :
    (m.withMetrics metrics).Follows m₀ period ds := { h with }

theorem isStarted (h : m.Follows m₀ period ds) (hds : ds.Timed) :
    m.snapshot.isStarted = ds.isStarted := by
  have hiff := startTime_ne_zero_iff hds
  rw [Bool.eq_iff_iff, Snapshot.isStarted, h.startTime, bne_iff_ne, hiff]

theorem isStopped (h : m.Follows m₀ period ds) (hds : ds.Timed) :
    m.snapshot.isStopped = ds.isResolved := by
  have hiff := stopTime_ne_zero_iff hds
  rw [Bool.eq_iff_iff, Snapshot.isStopped, h.stopTime, bne_iff_ne, hiff]

theorem isResolved (h : m.Follows m₀ period ds) (hds : ds.Timed) :
    m.snapshot.outcome.isResolved = ds.isResolved := by
  rw [h.outcome, isResolved_outcome hds]

theorem outcome? (h : m.Follows m₀ period ds) (hds : ds.Timed) (d : Deed) :
    m.outcome? d = d.outcome? ds.setPath? ds.isResolved := by
  rw [Meter.outcome?, h.okPath, h.isResolved hds]

/-! ## One more deed -/

theorem toNat_toWord (d : Duration) : d.toWord.toNat = min d.nanos (2 ^ 64 - 1) :=
  Word.toNat_ofNatCapped d.nanos

theorem toWord_eq_zero_iff (d : Duration) : d.toWord = 0 ↔ d.nanos = 0 := by
  rw [← UInt64.toNat_inj, toNat_toWord, UInt64.toNat_zero]
  omega

theorem toWord_ofMillis_eq_zero_iff (n : UInt64) :
    (Duration.ofMillis n.toNat).toWord = 0 ↔ n = 0 := by
  rw [toWord_eq_zero_iff, ← UInt64.toNat_inj, UInt64.toNat_zero]
  show n.toNat * 1000000 = 0 ↔ n.toNat = 0
  omega

/-- The words in which a meter compares times are exact. A period that no word holds never passes,
as the clock never shows zero. -/
theorem hasPassed_eq (around : Surroundings) {m : Meter} (hlast : m.lastProgress ≠ 0) :
    Focus.progressDue around m =
      around.config.progressPeriod.hasPassed m.lastProgress around.now := by
  have hpositive : m.lastProgress.toNat ≠ 0 := fun h => hlast (UInt64.toNat_inj.mp h)
  have hnow := around.now.toNat_lt
  rw [Bool.eq_iff_iff, Focus.progressDue, Duration.hasPassed]
  simp only [Bool.or_eq_true, beq_iff_eq, toWord_eq_zero_iff, decide_eq_true_eq,
    UInt64.le_iff_toNat_le, Word.toNat_satSub, toNat_toWord]
  omega

theorem reportsProgress (h : m.Follows m₀ period ds) (hds : ds.Timed) {around : Surroundings}
    (hperiod : around.config.progressPeriod = period) :
    m.reportsProgress around = ds.heeds period around.now := by
  rw [Meter.reportsProgress, heeds, h.isStarted hds, h.isStopped hds]
  cases hstarted : ds.isStarted with
  | false => rfl
  | true =>
    have hlast : m.lastProgress ≠ 0 := by
      rw [h.lastProgress]
      exact lastReport_ne_zero hds hstarted
    rw [hasPassed_eq around hlast, hperiod, h.lastProgress]

theorem resolve (h : m.Follows m₀ period ds) (now : UInt64) {d : Deed} {outcome : Outcome}
    (houtcome : d.outcome? ds.setPath? ds.isResolved = some outcome) :
    (m.resolved now outcome).Follows m₀ period ((now, d) :: ds) := by
  have hresolution : resolution? ((now, d) :: ds) = some (now, outcome) :=
    resolution?_cons_some houtcome
  have hstop : Deeds.stopTime ((now, d) :: ds) = now := by rw [Deeds.stopTime, hresolution]; rfl
  have hout : Deeds.outcome ((now, d) :: ds) = outcome := by rw [Deeds.outcome, hresolution]; rfl
  cases d with
  | part name => cases houtcome
  | drop unwinding =>
    have hmarks : marksTime period ds now (.drop unwinding) = true := by
      show (Deed.outcome? _ _ _).isSome = true
      rw [houtcome]
      rfl
    exact { h with stopTime := hstop.symm, outcome := hout.symm, lastTime := (if_pos hmarks).symm }
  | call c =>
    -- The calls that record no outcome are excluded; the others differ in the outcome alone.
    cases c
    all_goals try cases houtcome
    all_goals
      exact { h with stopTime := rfl, outcome := rfl, lastTime := rfl }

/-- A drop after a resolution leaves the meter as it is. -/
theorem release (h : m.Follows m₀ period ds) (now : UInt64) {unwinding : Bool}
    (houtcome : (Deed.drop unwinding).outcome? ds.setPath? ds.isResolved = none) :
    Follows { m with active := false } m₀ period ((now, .drop unwinding) :: ds) := by
  have hresolution : resolution? ((now, .drop unwinding) :: ds) = ds.resolution? :=
    resolution?_cons_none houtcome
  have hmarks : ¬ marksTime period ds now (.drop unwinding) = true := by
    show ¬ (Deed.outcome? _ _ _).isSome = true
    rw [houtcome]
    nofun
  refine { h with stopTime := ?_, outcome := ?_, lastTime := ?_ }
  · rw [Deeds.stopTime, hresolution]
    exact h.stopTime
  · rw [Deeds.outcome, hresolution]
    exact h.outcome
  · exact h.lastTime.trans (if_neg hmarks).symm

theorem start (h : m.Follows m₀ period ds) (now : UInt64) :
    (m.started now).Follows m₀ period ((now, .call .start) :: ds) :=
  { h with startTime := rfl, lastTime := rfl, lastProgress := rfl }

theorem progress (h : m.Follows m₀ period ds) (now : UInt64) :
    (if ds.heeds period now then m.progressed now else m).Follows m₀ period
      ((now, .call .progress) :: ds) := by
  by_cases hheeds : ds.heeds period now = true
  · rw [if_pos hheeds]
    exact { h with lastTime := (if_pos hheeds).symm, lastProgress := (if_pos hheeds).symm }
  · rw [if_neg hheeds]
    exact { h with
      lastTime := h.lastTime.trans (if_neg hheeds).symm
      lastProgress := h.lastProgress.trans (if_neg hheeds).symm }

/-- A call that is refused under a condition keeps the meter, and otherwise attaches something. -/
theorem adjust_ite {m' : Meter} {c : Call} {p : Prop} [Decidable p] {a : Adjustment}
    (hadjust : c.adjust m.adjustment = if p then m.adjustment else a)
    (hkept : p → m.Follows m' period ds) (hdone : ¬ p → (m.adjust a).Follows m' period ds) :
    (m.adjust (c.adjust m.adjustment)).Follows m' period ds := by
  rw [hadjust]
  by_cases hp : p
  · rw [if_pos hp, adjust_adjustment]
    exact hkept hp
  · rw [if_neg hp]
    exact hdone hp

/-- The word for a limit in milliseconds is any with this value, so that the kernel does not
multiply it out. -/
theorem adjust_limitMillis (h : m.Follows m₀ period ds) (now n : UInt64) {limit : UInt64}
    (hlimit : limit.toNat = min (n.toNat * 1000000) (2 ^ 64 - 1)) (hiff : limit = 0 ↔ n = 0)
    (hadjust : Call.adjust m.adjustment (.limitMillis n) =
      if limit = 0 then m.adjustment else { m.adjustment with timeLimit := limit }) :
    (m.adjust (Call.adjust m.adjustment (.limitMillis n))).Follows m₀ period
      ((now, .call (.limitMillis n)) :: ds) := by
  refine adjust_ite hadjust (fun hzero => ?_) fun hzero => ?_
  · exact { h with timeLimit := h.timeLimit.trans (if_pos (hiff.mp hzero)).symm }
  · exact { h with timeLimit := hlimit.trans (if_neg (mt hiff.mpr hzero)).symm }

theorem adjust (h : m.Follows m₀ period ds) (now : UInt64) {c : Call} (hstart : c ≠ .start)
    (hprogress : c ≠ .progress) (houtcome : c.outcome? ds.setPath? = none) :
    (m.adjust (c.adjust m.adjustment)).Follows m₀ period ((now, .call c) :: ds) := by
  cases c with
  | description text => exact { h with description := rfl }
  | limit d =>
    refine adjust_ite rfl (fun hzero => ?_) fun hzero => ?_
    · rw [toWord_eq_zero_iff] at hzero
      exact { h with timeLimit := h.timeLimit.trans (if_pos hzero).symm }
    · rw [toWord_eq_zero_iff] at hzero
      exact { h with timeLimit := (toNat_toWord d).trans (if_neg hzero).symm }
  | limitMillis n =>
    exact h.adjust_limitMillis now n (toNat_toWord (.ofMillis n.toNat))
      (toWord_ofMillis_eq_zero_iff n) rfl
  | expect n =>
    refine adjust_ite rfl (fun hzero => ?_) fun hzero => ?_
    · exact { h with expected := h.expected.trans (if_pos hzero).symm }
    · exact { h with expected := (if_neg hzero).symm }
  | start => exact absurd rfl hstart
  | increment =>
    refine { h with iteration := ?_ }
    show (Word.satAdd m.snapshot.iteration 1).toNat = min (ds.iteration + 1) (2 ^ 64 - 1)
    rw [Word.toNat_satAdd, h.iteration]
    rfl
  | incrementBy n =>
    refine adjust_ite rfl (fun hzero => ?_) fun hzero => ?_
    · refine { h with iteration := ?_ }
      show _ = min (ds.iteration + n.toNat) (2 ^ 64 - 1)
      have hlt := m.snapshot.iteration.toNat_lt
      rw [hzero, ← h.iteration, UInt64.toNat_zero]
      omega
    · refine { h with iteration := ?_ }
      show (Word.satAdd m.snapshot.iteration n).toNat = min (ds.iteration + n.toNat) (2 ^ 64 - 1)
      rw [Word.toNat_satAdd, h.iteration]
  | incrementTo n =>
    refine adjust_ite rfl (fun hle => ?_) fun hle => ?_
    · refine { h with iteration := ?_ }
      show _ = max ds.iteration n.toNat
      have hle' : n.toNat ≤ ds.iteration := h.iteration ▸ UInt64.le_iff_toNat_le.mp hle
      rw [h.iteration, Nat.max_eq_left hle']
    · refine { h with iteration := ?_ }
      show n.toNat = max ds.iteration n.toNat
      have hle' : ¬ n.toNat ≤ ds.iteration := h.iteration ▸ mt UInt64.le_iff_toNat_le.mpr hle
      rw [Nat.max_eq_right (Nat.le_of_not_le hle')]
  | progress => exact absurd rfl hprogress
  | attach name value =>
    exact { h with context := congrArg (Context.insert · _ _) h.context }
  | flag name => exact { h with context := congrArg (Context.insert · _ _) h.context }
  | attachOptional name value =>
    exact { h with context := congrArg (Context.insert · _ _) h.context }
  | flagIf condition name =>
    cases condition
    · exact { h with }
    · exact { h with context := congrArg (Context.insert · _ _) h.context }
  | flagEither condition yes no =>
    exact { h with context := congrArg (Context.insert · _ _) h.context }
  | detach name => exact { h with context := congrArg (Context.erase · _) h.context }
  | setPath path => exact { h with okPath := rfl }
  | ok | okPath path | reject path | fail failure | failPath path message => cases houtcome

theorem deed (h : m.Follows m₀ period ds) (hds : ds.Timed) (around : Surroundings)
    (hperiod : around.config.progressPeriod = period) (d : Deed) :
    (d.change around m).Follows m₀ period ((around.now, d) :: ds) := by
  -- The meter and its history agree on whether the deed is a resolution, so the cases are those of
  -- the history.
  have hsame := h.outcome? hds d
  cases houtcome : d.outcome? ds.setPath? ds.isResolved with
  | some outcome =>
    rw [houtcome] at hsame
    simp only [Deed.change, hsame]
    exact h.resolve around.now houtcome
  | none =>
    rw [houtcome] at hsame
    cases d with
    | part name => exact { h with }
    | drop unwinding =>
      simp only [Deed.change, hsame]
      exact h.release around.now houtcome
    | call c =>
      by_cases hstart : c = .start
      · subst hstart
        exact h.start around.now
      by_cases hprogress : c = .progress
      · subst hprogress
        have hchange := h.progress around.now
        rw [← h.reportsProgress hds hperiod] at hchange
        exact hchange
      have hchange : Deed.change around m (.call c) = m.adjust (c.adjust m.adjustment) := by
        simp only [Deed.change, hsame]
      rw [hchange]
      exact h.adjust around.now hstart hprogress houtcome

end Meter.Follows
end Metering
