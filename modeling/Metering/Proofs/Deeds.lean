import Metering.Proofs.World

/-!
# Proofs: what is done to a meter, exactly

A meter is called, it is asked for a meter for a part of its operation, and it is dropped. Three
tables say for each of these deeds, from the meter alone, which misuse is reported, how the meter
changes, and which transition is made. The main statement is that a deed does just that: it reports
the misuse, changes the meter, samples the metrics if its transition needs them, and then logs the
events of its transition from the snapshot that it leaves behind.
-/

namespace Metering

/-- What is done to a meter: it is called, it is asked for a meter for a part of its operation, or
it is dropped, perhaps while its thread is unwinding. -/
inductive Deed where
  /-- It is called. -/
  | call (c : Call)
  /-- It is asked for a meter for a part of its operation. -/
  | part (name : String)
  /-- It is dropped, perhaps while its thread is unwinding. -/
  | drop (unwinding : Bool)
  deriving DecidableEq

/-- The action that does something to a meter. -/
def Deed.on (i : Nat) : Deed → World.Action
  | .call c => .call i c
  | .part name => .createPart i name
  | .drop unwinding => .drop unwinding i

/-- What a deed does to the meter and around it. A part is created afterwards. -/
def Deed.perform (around : Surroundings) (f : Focus) : Deed → Focus
  | .call c => f.perform around c
  | .part name => f.report (f.snapshot.misuseOfPart name)
  | .drop unwinding => f.drop around unwinding

/-! ## Resolutions -/

/-- The outcome that a call records, where `okPath` is the path of a success without its own. -/
def Call.outcome? (okPath : Option String) : Call → Option Outcome
  | .ok => some (.ok okPath)
  | .okPath path => some (.ok (some path))
  | .reject path => some (.reject path)
  | .fail failure => some (.fail failure.path (some failure.text))
  | .failPath path message => some (.fail path (some message))
  | _ => none

/-- The outcome of an operation whose meter is dropped without one. -/
def dropOutcome (unwinding : Bool) : Outcome :=
  .fail dropPath (if unwinding then some unwindingMessage else none)

/-- The outcome that a deed records, if it resolves the operation. A drop resolves an operation that
is not resolved yet. -/
def Deed.outcome? (okPath : Option String) (resolved : Bool) : Deed → Option Outcome
  | .call c => c.outcome? okPath
  | .part _ => none
  | .drop unwinding => if resolved then none else some (dropOutcome unwinding)

/-- The outcome that a deed on a meter records. -/
def Meter.outcome? (m : Meter) (d : Deed) : Option Outcome :=
  d.outcome? m.okPath m.snapshot.outcome.isResolved

theorem Call.isResolved_of_outcome? {okPath : Option String} {c : Call} {outcome : Outcome}
    (h : c.outcome? okPath = some outcome) : outcome.isResolved = true := by
  cases c <;> simp only [outcome?, Option.some.injEq, reduceCtorEq] at h <;> subst h <;> rfl

theorem Deed.isResolved_of_outcome? {okPath : Option String} {resolved : Bool} {d : Deed}
    {outcome : Outcome} (h : d.outcome? okPath resolved = some outcome) :
    outcome.isResolved = true := by
  cases d with
  | call c => exact Call.isResolved_of_outcome? h
  | part name => cases h
  | drop unwinding =>
    simp only [outcome?] at h
    split at h
    · cases h
    · cases h
      rfl

/-! ## The tables -/

/-- What a call attaches. -/
def Call.adjust (a : Adjustment) : Call → Adjustment
  | .description text => { a with description := some text }
  | .limit d => if d.toWord = 0 then a else { a with timeLimit := d.toWord }
  | .limitMillis n =>
    let d := Duration.ofMillis n.toNat
    if d.toWord = 0 then a else { a with timeLimit := d.toWord }
  | .expect n => if n = 0 then a else { a with expected := n }
  | .increment => { a with iteration := Word.satAdd a.iteration 1 }
  | .incrementBy n => if n = 0 then a else { a with iteration := Word.satAdd a.iteration n }
  | .incrementTo n => if n ≤ a.iteration then a else { a with iteration := n }
  | .attach name value => { a with context := a.context.insert (attachedName name) value.display }
  | .flag name => { a with context := a.context.insert (attachedName name) "" }
  | .attachOptional name value =>
    { a with context := a.context.insert (attachedName name) (value.getD absentValue) }
  | .flagIf condition name =>
    if condition then { a with context := a.context.insert (attachedName name) "" } else a
  | .flagEither condition yes no =>
    { a with context := a.context.insert (attachedName (if condition then yes else no)) "" }
  | .detach name => { a with context := a.context.erase (attachedName name) }
  | .setPath path => { a with okPath := some path }
  | .start | .progress | .ok | .okPath _ | .reject _ | .fail _ | .failPath .. => a

/-- Whether a call for progress is answered by a report. -/
def Meter.reportsProgress (around : Surroundings) (m : Meter) : Bool :=
  m.snapshot.isStarted && !m.snapshot.isStopped && Focus.progressDue around m

/-- How a deed changes a meter, up to the sampled metrics. -/
def Deed.change (around : Surroundings) (m : Meter) (d : Deed) : Meter :=
  match m.outcome? d with
  | some outcome => m.resolved around.now outcome
  | none =>
    match d with
    | .call .start => m.started around.now
    | .call .progress => if m.reportsProgress around then m.progressed around.now else m
    | .call c => m.adjust (c.adjust m.adjustment)
    | .part _ => m
    | .drop _ => { m with active := false }

/-- The transition that a deed makes, if it makes one. -/
def Deed.transition? (around : Surroundings) (m : Meter) (d : Deed) : Option Transition :=
  match m.outcome? d with
  | some outcome => some (Focus.terminal (m.resolved around.now outcome).snapshot)
  | none =>
    match d with
    | .call .start => some .started
    | .call .progress => if m.reportsProgress around then some .progress else none
    | _ => none

theorem Deed.change_of_outcome? {around : Surroundings} {m : Meter} {d : Deed} {outcome : Outcome}
    (h : m.outcome? d = some outcome) : d.change around m = m.resolved around.now outcome := by
  simp only [change, h]

theorem Deed.transition?_of_outcome? {around : Surroundings} {m : Meter} {d : Deed}
    {outcome : Outcome} (h : m.outcome? d = some outcome) : d.transition? around m =
      some (Focus.terminal (m.resolved around.now outcome).snapshot) := by
  simp only [transition?, h]

/-- The metrics in the snapshot that a deed leaves behind. -/
def Deed.metrics (around : Surroundings) (m : Meter) (d : Deed) : Metrics :=
  match d.transition? around m with
  | none => m.snapshot.metrics
  | some t => if Focus.samples around t m.snapshot then around.metrics else m.snapshot.metrics

theorem Deed.metrics_change (around : Surroundings) (m : Meter) (d : Deed) :
    (d.change around m).snapshot.metrics = m.snapshot.metrics := by
  unfold change
  split
  · rfl
  · split
    · rfl
    · split <;> rfl
    · rfl
    · rfl
    · rfl

theorem Deed.session_change (around : Surroundings) (m : Meter) (d : Deed) :
    (d.change around m).session = m.session := by
  unfold change
  split
  · rfl
  · split
    · rfl
    · split <;> rfl
    · rfl
    · rfl
    · rfl

/-- The misuse that a call is. -/
def Call.misuse (s : Snapshot) : Call → Option Misuse
  | .start => s.misuseOfStart
  | .limit d => s.misuseOfPositive "time limit" d.toWord
  | .limitMillis n => s.misuseOfPositive "time limit" (Duration.ofMillis n.toNat).toWord
  | .expect n => s.misuseOfPositive "expected iterations" n
  | .increment => s.misuseOfIncrement
  | .incrementBy n => (s.misuseOfIncrementBy n).or s.misuseOfIncrement
  | .incrementTo n => (s.misuseOfIncrementTo n).or s.misuseOfIncrement
  | .progress => s.misuseOfProgress
  | .ok | .okPath _ => s.misuseOfResolve (.inconsistent .ok)
  | .reject _ => s.misuseOfResolve (.inconsistent .reject)
  | .fail _ | .failPath .. => s.misuseOfResolve (.inconsistent .fail)
  | .description _ | .attach .. | .flag _ | .attachOptional .. | .flagIf .. | .flagEither ..
  | .detach _ | .setPath _ => none

/-- The misuse that a deed is. -/
def Deed.misuse (s : Snapshot) : Deed → Option Misuse
  | .call c => c.misuse s
  | .part name => s.misuseOfPart name
  | .drop _ =>
    if s.outcome.isResolved then none else s.misuseOfResolve (.inconsistent .fail)

namespace Focus

variable {around : Surroundings} {f g : Focus}

/-- Whether a state `g` is what the tables say of a deed. -/
structure Does (around : Surroundings) (f : Focus) (d : Deed) (g : Focus) : Prop where
  /-- The meter changes, and perhaps its metrics are sampled. -/
  meter : ∃ metrics, g.meter = (d.change around f.meter).withMetrics metrics
  /-- The misuse is reported, and then the transition is logged. -/
  events : g.events = f.events ++ reports (d.misuse f.snapshot) f.snapshot ++
    loggedEvents around (d.transition? around f.meter) g.snapshot
  /-- The metrics are sampled if something that shows them is wanted of the transition. -/
  metrics : g.snapshot.metrics = d.metrics around f.meter

theorem Does.meter_eq {d : Deed} (h : Does around f d g) :
    g.meter = (d.change around f.meter).withMetrics (d.metrics around f.meter) := by
  obtain ⟨⟨metrics, hmeter⟩, -, hmetrics⟩ := h
  rw [← hmetrics, snapshot, hmeter]
  rfl

/-! ## Calls without a transition -/

theorem does_quiet {d : Deed} (hmeter : g.meter = d.change around f.meter)
    (htransition : d.transition? around f.meter = none)
    (hevents : g.events = f.events ++ reports (d.misuse f.snapshot) f.snapshot) :
    Does around f d g := by
  refine ⟨⟨g.snapshot.metrics, ?_⟩, ?_, ?_⟩
  · rw [← hmeter]
    rfl
  · rw [htransition, hevents, loggedEvents, List.append_nil]
  · rw [snapshot, hmeter, Deed.metrics_change, Deed.metrics, htransition]

/-- A change that is guarded by a condition. Where it takes place it may be reported all the same,
as counting is before the start. -/
theorem does_guarded {d : Deed} {c : Prop} [Decidable c] {m : Misuse} {change : Focus → Focus}
    (rest : Option Misuse) (a : Adjustment)
    (hchange : d.change around f.meter = f.meter.adjust (if c then f.meter.adjustment else a))
    (htransition : d.transition? around f.meter = none)
    (hmisuse : d.misuse f.snapshot = (if c then some m else none).or rest)
    (hmeter : (change f).meter = f.meter.adjust a)
    (hevents : (change f).events = f.events ++ reports rest f.snapshot) :
    Does around f d (f.guarded (if c then some m else none) change) := by
  by_cases hc : c
  · simp only [if_pos hc, Option.some_or] at hchange hmisuse ⊢
    refine does_quiet ?_ htransition ?_
    · rw [hchange, Meter.adjust_adjustment]
      rfl
    · rw [hmisuse]
      rfl
  · simp only [if_neg hc, Option.none_or] at hchange hmisuse ⊢
    refine does_quiet ?_ htransition ?_
    · rw [hchange]
      exact hmeter
    · rw [hmisuse]
      exact hevents

theorem does_attached {d : Deed} (a : Adjustment)
    (hchange : d.change around f.meter = f.meter.adjust a)
    (htransition : d.transition? around f.meter = none) (hmisuse : d.misuse f.snapshot = none) :
    Does around f d { f with meter := f.meter.adjust a } := by
  refine does_quiet hchange.symm htransition ?_
  rw [hmisuse]
  exact (List.append_nil _).symm

/-! ## Transitions -/

/-- The metrics are sampled as the category and the configuration ask for it. -/
theorem sampled_metrics (t : Transition) (h : f.snapshot.category = g.snapshot.category)
    (hmetrics : f.snapshot.metrics = g.snapshot.metrics) :
    (f.emit around t).snapshot.metrics =
      if samples around t g.snapshot then around.metrics else g.snapshot.metrics := by
  have hsamples : samples around t f.snapshot = samples around t g.snapshot := by
    simp only [samples, wantsData, wantsMessage, h]
  rw [emit_eq, ← hsamples, ← hmetrics]
  unfold sampled
  split <;> rfl

theorem does_start : Does around f (.call .start) (f.start around) := by
  refine ⟨meter_start around f, ?_, ?_⟩
  · rw [start, events_emit, events_activate, report_eq]
    rfl
  · rw [start, sampled_metrics (g := f)]
    · rfl
    all_goals
      rw [snapshot, meter_activate]
      simp only [noteStart, update, meter_report]
      rfl

theorem does_resolve {d : Deed} {outcome : Outcome} {attempt : Attempt}
    (houtcome : f.meter.outcome? d = some outcome)
    (hmisuse : d.misuse f.snapshot = f.snapshot.misuseOfResolve (.inconsistent attempt)) :
    Does around f d (f.resolve around outcome attempt) := by
  refine ⟨?_, ?_, ?_⟩
  · simp only [Deed.change, houtcome]
    exact meter_resolve around f outcome attempt
  · simp only [Deed.transition?, houtcome, hmisuse]
    rw [resolve_eq, events_emit, events_deactivate, report_eq]
    rfl
  · rw [resolve_eq, sampled_metrics (g := f)]
    · simp only [Deed.metrics, Deed.transition?, houtcome]
      rfl
    all_goals
      rw [snapshot, meter_deactivate]
      simp only [noteOutcome, update, meter_report]
      rfl

theorem progress_of_unstarted (h : f.meter.snapshot.isStarted = false) :
    f.progress around = f.report (some .progressUnstarted) := by
  simp [progress, Snapshot.misuseOfProgress, snapshot, h, guarded]

theorem progress_of_started (h : f.meter.snapshot.isStarted = true) :
    f.progress around =
      if f.meter.reportsProgress around then (f.noteProgress around).emit around .progress
      else f := by
  by_cases hstopped : f.meter.snapshot.isStopped = true
  · simp [progress, Snapshot.misuseOfProgress, Meter.reportsProgress, guarded, snapshot, h,
      hstopped]
  · by_cases hdue : progressDue around f.meter = true
    all_goals
      simp [progress, Snapshot.misuseOfProgress, Meter.reportsProgress, guarded, snapshot, h,
        hstopped, hdue]

theorem does_progress : Does around f (.call .progress) (f.progress around) := by
  have hchange : Deed.change around f.meter (.call .progress) =
      if f.meter.reportsProgress around then f.meter.progressed around.now else f.meter := rfl
  have htransition : Deed.transition? around f.meter (.call .progress) =
      if f.meter.reportsProgress around then some .progress else none := rfl
  have hmisuse : Deed.misuse f.snapshot (.call .progress) =
      if f.meter.snapshot.isStarted then none else some .progressUnstarted := rfl
  -- Before the start a call for progress is misuse; after it, it is reported on or ignored.
  cases hstarted : f.meter.snapshot.isStarted with
  | false =>
    have hquiet : f.meter.reportsProgress around = false := by
      rw [Meter.reportsProgress, hstarted, Bool.false_and, Bool.false_and]
    rw [hquiet] at hchange htransition
    rw [hstarted] at hmisuse
    rw [progress_of_unstarted hstarted]
    refine does_quiet hchange.symm htransition ?_
    rw [hmisuse]
    rfl
  | true =>
    rw [hstarted] at hmisuse
    rw [progress_of_started hstarted]
    cases hreports : f.meter.reportsProgress around with
    | false =>
      rw [hreports] at hchange htransition
      refine does_quiet hchange.symm htransition ?_
      rw [hmisuse]
      exact (List.append_nil _).symm
    | true =>
      rw [hreports] at hchange htransition
      refine ⟨?_, ?_, ?_⟩
      · rw [hchange]
        exact meter_emit around (f.noteProgress around) .progress
      · rw [htransition, hmisuse]
        simp only [if_true, events_emit]
        exact congrArg (· ++ _) (List.append_nil _).symm
      · simp only [Deed.metrics, htransition, if_true]
        exact sampled_metrics .progress rfl rfl

theorem does_drop (unwinding : Bool) :
    Does around f (.drop unwinding) (f.drop around unwinding) := by
  cases hresolved : f.meter.snapshot.outcome.isResolved with
  | true =>
    have hdrop : f.drop around unwinding = f.deactivate := by simp [drop, snapshot, hresolved]
    have houtcome : f.meter.outcome? (.drop unwinding) = none := if_pos hresolved
    rw [hdrop]
    refine does_quiet ?_ ?_ ?_
    · simp only [Deed.change, houtcome]
      exact meter_deactivate
    · simp only [Deed.transition?, houtcome]
    · have hmisuse : Deed.misuse f.snapshot (.drop unwinding) = none := if_pos hresolved
      rw [events_deactivate, hmisuse]
      exact (List.append_nil _).symm
  | false =>
    rw [drop_of_unresolved around unwinding hresolved]
    refine does_resolve ?_ ?_
    · simp [Meter.outcome?, Deed.outcome?, dropOutcome, hresolved]
    · simp [Deed.misuse, snapshot, hresolved]

theorem does_attach (name value : String) {c : Call}
    (hc : Deed.change around f.meter (.call c) = f.meter.adjust { f.meter.adjustment with
      context := f.meter.snapshot.context.insert (attachedName name) value })
    (htransition : Deed.transition? around f.meter (.call c) = none)
    (hmisuse : Deed.misuse f.snapshot (.call c) = none) :
    Does around f (.call c) (f.attach name value) :=
  does_attached _ hc htransition hmisuse

theorem does_limit (d : Duration) {c : Call}
    (hchange : Deed.change around f.meter (.call c) = f.meter.adjust
      (if d.toWord = 0 then f.meter.adjustment
      else { f.meter.adjustment with timeLimit := d.toWord }))
    (htransition : Deed.transition? around f.meter (.call c) = none)
    (hmisuse : Deed.misuse f.snapshot (.call c) =
      f.snapshot.misuseOfPositive "time limit" d.toWord) :
    Does around f (.call c) (f.limit d) := by
  apply does_guarded none { f.meter.adjustment with timeLimit := d.toWord } hchange htransition
  · rw [hmisuse, Option.or_none]
    rfl
  · rfl
  · exact (List.append_nil _).symm

theorem does_expect (n : UInt64) :
    Does around f (.call (.expect n)) (f.perform around (.expect n)) := by
  apply does_guarded none { f.meter.adjustment with expected := n }
  · rfl
  · rfl
  · exact Option.or_none.symm
  · rfl
  · exact (List.append_nil _).symm

/-- Counting is reported before the start and takes place all the same. -/
theorem meter_counted (change : Snapshot → Snapshot) :
    ((f.report f.snapshot.misuseOfIncrement).update change).meter =
      { f.meter with snapshot := change f.meter.snapshot } := by
  rw [report_eq]
  rfl

theorem events_counted (change : Snapshot → Snapshot) :
    ((f.report f.snapshot.misuseOfIncrement).update change).events =
      f.events ++ reports f.snapshot.misuseOfIncrement f.snapshot := by
  rw [report_eq]
  rfl

theorem does_increment : Does around f (.call .increment) (f.incrementBy 1) := by
  have hone : f.incrementBy 1 = (f.report f.snapshot.misuseOfIncrement).update fun s =>
      { s with iteration := Word.satAdd s.iteration 1 } := by
    simp [incrementBy, Snapshot.misuseOfIncrementBy, guarded]
  rw [hone]
  exact does_quiet (meter_counted _) rfl (events_counted _)

theorem does_incrementBy (n : UInt64) :
    Does around f (.call (.incrementBy n)) (f.incrementBy n) := by
  apply does_guarded f.snapshot.misuseOfIncrement
    { f.meter.adjustment with iteration := Word.satAdd f.meter.snapshot.iteration n }
  · rfl
  · rfl
  · rfl
  · exact meter_counted _
  · exact events_counted _

theorem does_incrementTo (n : UInt64) :
    Does around f (.call (.incrementTo n)) (f.incrementTo n) := by
  apply does_guarded f.snapshot.misuseOfIncrement { f.meter.adjustment with iteration := n }
  · rfl
  · rfl
  · rfl
  · exact meter_counted _
  · exact events_counted _

theorem does_perform (c : Call) : Does around f (.call c) (f.perform around c) := by
  cases c with
  | description text =>
    exact does_attached { f.meter.adjustment with description := some text } rfl rfl rfl
  | limit d => exact does_limit d rfl rfl rfl
  | limitMillis n => exact does_limit (.ofMillis n.toNat) rfl rfl rfl
  | expect n => exact does_expect n
  | start => exact does_start
  | increment => exact does_increment
  | incrementBy n => exact does_incrementBy n
  | incrementTo n => exact does_incrementTo n
  | progress => exact does_progress
  | attach name value => exact does_attach name value.display rfl rfl rfl
  | flag name => exact does_attach name "" rfl rfl rfl
  | attachOptional name value => exact does_attach name (value.getD absentValue) rfl rfl rfl
  | flagIf condition name =>
    cases condition
    · exact does_attached f.meter.adjustment rfl rfl rfl
    · exact does_attach name "" rfl rfl rfl
  | flagEither condition yes no => exact does_attach _ "" rfl rfl rfl
  | detach name =>
    exact does_attached { f.meter.adjustment with
      context := f.meter.snapshot.context.erase (attachedName name) } rfl rfl rfl
  | setPath path =>
    exact does_attached { f.meter.adjustment with okPath := some path } rfl rfl rfl
  | ok | okPath path | reject path | fail failure | failPath path message =>
    exact does_resolve rfl rfl

theorem allReports_misuse (d : Deed) (s : Snapshot) : AllReports (reports (d.misuse s) s) := by
  have hor {a b : Option Misuse} (ha : AllReports (reports a s)) (hb : AllReports (reports b s)) :
      AllReports (reports (a.or b) s) := by
    cases a with
    | none => exact hb
    | some m => exact ha
  cases d with
  | call c =>
    cases c with
    | start => exact allReports_misuseOfStart s
    | limit d | limitMillis n | expect n => exact allReports_misuseOfPositive s _ _
    | increment => exact allReports_misuseOfIncrement s
    | incrementBy n =>
      exact hor (allReports_misuseOfIncrementBy s n) (allReports_misuseOfIncrement s)
    | incrementTo n =>
      exact hor (allReports_misuseOfIncrementTo s n) (allReports_misuseOfIncrement s)
    | progress => exact allReports_misuseOfProgress s
    | ok | okPath path | reject path | fail failure | failPath path message =>
      exact allReports_misuseOfResolve s _
    | _ => exact allReports_none s
  | part name => exact allReports_misuseOfPart s name
  | drop unwinding => exact allReports_ite (allReports_none s) (allReports_misuseOfResolve s _)

/-- A deed does what the tables say. -/
theorem does_deed (d : Deed) : Does around f d (d.perform around f) := by
  cases d with
  | call c => exact does_perform c
  | part name =>
    refine does_quiet ?_ rfl ?_
    · exact meter_report _
    · rw [Deed.perform, report_eq]
      rfl
  | drop unwinding => exact does_drop unwinding

end Focus
end Metering
