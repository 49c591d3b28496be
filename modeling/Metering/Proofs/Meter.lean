import Metering.Meter

/-!
# Proofs: what a call does

Whatever is called on a meter, one of five things happens. Most calls adjust what is attached to the
operation and may report a misuse. A start, a report of progress and a resolution note the time, and
then log their transition. And a meter that is dropped after its resolution is released.

A transition is logged from the snapshot that it leaves behind: the readable message and the data
tell the same state, and where there are data, the metrics in it are those in force.
-/

namespace Metering

/-! ## Kinds of outcomes -/

section

variable {outcome : Outcome}

theorem isResolved_eq_false_iff : outcome.isResolved = false ↔ outcome = .unset := by
  cases outcome <;> simp [Outcome.isResolved]

theorem isOk_iff : outcome.isOk = true ↔ ∃ path, outcome = .ok path := by
  cases outcome <;> simp [Outcome.isOk]

theorem isReject_iff : outcome.isReject = true ↔ ∃ path, outcome = .reject path := by
  cases outcome <;> simp [Outcome.isReject]

theorem isFail_iff : outcome.isFail = true ↔ ∃ path message, outcome = .fail path message := by
  cases outcome <;> simp [Outcome.isFail]

end

/-! ## Changes of a meter -/

/-- The snapshot with other metrics. -/
def Snapshot.withMetrics (s : Snapshot) (metrics : Metrics) : Snapshot := { s with metrics }

/-- The meter with other metrics in its snapshot. -/
def Meter.withMetrics (m : Meter) (metrics : Metrics) : Meter :=
  { m with snapshot := m.snapshot.withMetrics metrics }

/-- What a call can attach to a meter without a transition. -/
structure Adjustment where
  /-- The path that a success without a path of its own takes. -/
  okPath : Option String
  /-- The description. -/
  description : Option String
  /-- The time limit. -/
  timeLimit : UInt64
  /-- The completed iterations. -/
  iteration : UInt64
  /-- The expected iterations. -/
  expected : UInt64
  /-- The context. -/
  context : Context

/-- The meter with other attachments. -/
def Meter.adjust (m : Meter) (a : Adjustment) : Meter :=
  { m with
    okPath := a.okPath
    snapshot := { m.snapshot with
      description := a.description
      timeLimit := a.timeLimit
      iteration := a.iteration
      expected := a.expected
      context := a.context } }

/-- What is attached to a meter. -/
def Meter.adjustment (m : Meter) : Adjustment :=
  ⟨m.okPath, m.snapshot.description, m.snapshot.timeLimit, m.snapshot.iteration,
    m.snapshot.expected, m.snapshot.context⟩

theorem Meter.adjust_adjustment (m : Meter) : m.adjust m.adjustment = m := rfl

/-- The meter after a start. It becomes active unless the operation is already resolved. -/
def Meter.started (m : Meter) (now : UInt64) : Meter :=
  { m with
    snapshot := { m.snapshot with startTime := now, lastTime := now }
    lastProgress := now
    active := m.active || !m.snapshot.outcome.isResolved }

/-- The meter after a report of progress. -/
def Meter.progressed (m : Meter) (now : UInt64) : Meter :=
  { m with snapshot := { m.snapshot with lastTime := now }, lastProgress := now }

/-- The meter after a resolution. -/
def Meter.resolved (m : Meter) (now : UInt64) (outcome : Outcome) : Meter :=
  { m with
    snapshot := { m.snapshot with stopTime := now, lastTime := now, outcome }
    active := false }

/-- How a meter changes, whatever is done to it. A transition may sample the metrics. -/
inductive Meter.Change (now : UInt64) (m : Meter) : Meter → Prop where
  /-- Attachments are changed. -/
  | adjust (a : Adjustment) : Change now m (m.adjust a)
  /-- The operation is started. -/
  | start (metrics : Metrics) : Change now m ((m.started now).withMetrics metrics)
  /-- The running operation reports progress. -/
  | progress (metrics : Metrics) (hstarted : m.snapshot.isStarted = true)
    (hstopped : m.snapshot.isStopped = false) :
    Change now m ((m.progressed now).withMetrics metrics)
  /-- The operation is resolved. -/
  | resolve (metrics : Metrics) (outcome : Outcome) (h : outcome.isResolved = true) :
    Change now m ((m.resolved now outcome).withMetrics metrics)
  /-- The meter of a resolved operation is released. -/
  | release (h : m.snapshot.outcome.isResolved = true) : Change now m { m with active := false }

variable {now : UInt64} {m m' : Meter}

theorem Meter.Change.session_eq (h : Change now m m') : m'.session = m.session := by
  cases h <;> rfl

namespace Focus

/-! ## Reports -/

/-- The report of a misuse, if there is one. -/
def reports (misuse : Option Misuse) (s : Snapshot) : List Event :=
  (misuse.map (·.event s)).toList

theorem report_eq (f : Focus) (misuse : Option Misuse) :
    f.report misuse = { f with events := f.events ++ reports misuse f.snapshot } := by
  cases misuse with
  | none => simp [report, reports]
  | some m => rfl

/-- Whether all events are reports of misuse. -/
def AllReports (es : List Event) : Prop := ∀ e ∈ es, e.marker.isDiagnostic = true

theorem allReports_nil : AllReports [] := fun _ h => absurd h List.not_mem_nil

theorem allReports_none (s : Snapshot) : AllReports (reports none s) := allReports_nil

theorem allReports_some {m : Misuse} (s : Snapshot) (h : m.marker.isDiagnostic = true) :
    AllReports (reports (some m) s) := by
  intro e he
  obtain rfl : e = m.event s := by simpa [reports] using he
  exact h

theorem allReports_ite {c : Prop} [Decidable c] {a b : Option Misuse} {s : Snapshot}
    (ha : AllReports (reports a s)) (hb : AllReports (reports b s)) :
    AllReports (reports (if c then a else b) s) := by
  split
  · exact ha
  · exact hb

theorem allReports_misuseOfStart (s : Snapshot) : AllReports (reports s.misuseOfStart s) :=
  allReports_ite (allReports_some s rfl) (allReports_none s)

theorem allReports_misuseOfResolve (s : Snapshot) (attempt : Attempt) :
    AllReports (reports (s.misuseOfResolve (.inconsistent attempt)) s) :=
  allReports_ite (allReports_some s rfl)
    (allReports_ite (allReports_none s) (allReports_some s rfl))

theorem allReports_misuseOfIncrement (s : Snapshot) : AllReports (reports s.misuseOfIncrement s) :=
  allReports_ite (allReports_none s) (allReports_some s rfl)

theorem allReports_misuseOfIncrementBy (s : Snapshot) (n : UInt64) :
    AllReports (reports (s.misuseOfIncrementBy n) s) :=
  allReports_ite (allReports_some s rfl) (allReports_none s)

theorem allReports_misuseOfIncrementTo (s : Snapshot) (n : UInt64) :
    AllReports (reports (s.misuseOfIncrementTo n) s) :=
  allReports_ite (allReports_some s rfl) (allReports_none s)

theorem allReports_misuseOfProgress (s : Snapshot) : AllReports (reports s.misuseOfProgress s) :=
  allReports_ite (allReports_none s) (allReports_some s rfl)

theorem allReports_misuseOfPositive (s : Snapshot) (what : String) (n : UInt64) :
    AllReports (reports (s.misuseOfPositive what n) s) :=
  allReports_ite (allReports_some s rfl) (allReports_none s)

theorem allReports_misuseOfPart (s : Snapshot) (name : String) :
    AllReports (reports (s.misuseOfPart name) s) :=
  allReports_ite (allReports_some s rfl) (allReports_none s)

/-! ## Logging a transition -/

/-- Whether something is wanted of a transition that shows the metrics. -/
def samples (around : Surroundings) (t : Transition) (s : Snapshot) : Bool :=
  wantsData around s || (wantsMessage around t s && around.config.needsMetrics)

/-- The metrics are sampled if they are needed. -/
def sampled (around : Surroundings) (t : Transition) (f : Focus) : Focus :=
  if samples around t f.snapshot then f.update (·.withMetrics around.metrics) else f

/-- The events of a transition: the readable message and the data, as far as they are wanted. -/
def transitionEvents (around : Surroundings) (t : Transition) (s : Snapshot) : List Event :=
  (if wantsMessage around t s then [messageEvent around t s] else []) ++
    (if wantsData around s then [dataEvent around t s] else [])

theorem sampled_eq (around : Surroundings) (t : Transition) (f : Focus) :
    ∃ metrics, f.sampled around t = f.update (·.withMetrics metrics) := by
  unfold sampled
  split
  · exact ⟨_, rfl⟩
  · exact ⟨f.snapshot.metrics, rfl⟩

/-- The events of a transition are those of the snapshot that it leaves behind. -/
theorem emit_eq (around : Surroundings) (t : Transition) (f : Focus) :
    f.emit around t =
      { f.sampled around t with
        events := f.events ++ transitionEvents around t (f.sampled around t).snapshot } := by
  obtain ⟨metrics, hsampled⟩ := sampled_eq around t f
  have hmessage : wantsMessage around t (f.sampled around t).snapshot =
      wantsMessage around t f.snapshot := by rw [hsampled]; rfl
  have hdata : wantsData around (f.sampled around t).snapshot = wantsData around f.snapshot := by
    rw [hsampled]; rfl
  have hevents : (f.sampled around t).events = f.events := by rw [hsampled]; rfl
  simp only [transitionEvents, hmessage, hdata]
  cases hm : wantsMessage around t f.snapshot <;> cases hd : wantsData around f.snapshot
  case false.false => simp [emit, sampled, samples, hm, hd]
  -- Something is wanted, so the focus in the middle is the sampled one.
  all_goals
    have hsame : (if wantsData around f.snapshot || around.config.needsMetrics then
        f.update (·.withMetrics around.metrics) else f) = f.sampled around t := by
      simp [sampled, samples, hm, hd]
    unfold Snapshot.withMetrics at hsame
    simp [emit, hm, hd] at hsame ⊢
    simp [hsame, hevents]

/-- What is logged at the end of a call: the events of its transition, if it makes one. -/
def loggedEvents (around : Surroundings) (t : Option Transition) (s : Snapshot) : List Event :=
  match t with
  | none => []
  | some t => transitionEvents around t s

theorem metrics_sampled (around : Surroundings) (t : Transition) (f : Focus)
    (h : wantsData around f.snapshot = true) :
    (f.sampled around t).snapshot.metrics = around.metrics := by
  simp only [sampled, samples, h, Bool.true_or, if_true]
  rfl

/-! ## The effects of calls -/

/-- What something that is done to a meter can lead to, with the transition that it makes. -/
inductive Effect (around : Surroundings) (f : Focus) : Option Transition → Focus → Prop where
  /-- Attachments are changed, and misuse may be reported. -/
  | adjust (a : Adjustment) (es : List Event) (h : AllReports es) :
    Effect around f none { f with meter := f.meter.adjust a, events := f.events ++ es }
  /-- The operation is started. -/
  | start : Effect around f (some .started) (f.start around)
  /-- The running operation reports progress. -/
  | progress (hstarted : f.snapshot.isStarted = true) (hstopped : f.snapshot.isStopped = false)
    (hdue : progressDue around f.meter = true) :
    Effect around f (some .progress) ((f.noteProgress around).emit around .progress)
  /-- The operation is resolved. -/
  | resolve (outcome : Outcome) (attempt : Attempt) (h : outcome.isResolved = true) :
    Effect around f (some (terminal (f.noteOutcome around outcome).snapshot))
      (f.resolve around outcome attempt)
  /-- The meter of a resolved operation is released. -/
  | release (h : f.snapshot.outcome.isResolved = true) : Effect around f none f.deactivate

variable {around : Surroundings} {f g : Focus} {t : Option Transition}

theorem effect_self : Effect around f none f := by
  have h : Effect around f none _ := .adjust f.meter.adjustment [] allReports_nil
  rwa [Meter.adjust_adjustment, List.append_nil] at h

theorem effect_report (misuse : Option Misuse) (h : AllReports (reports misuse f.snapshot)) :
    Effect around f none (f.report misuse) := by
  rw [report_eq]
  exact .adjust f.meter.adjustment _ h

/-- A guarded change either happens or is reported. -/
theorem effect_guarded (misuse : Option Misuse) (change : Focus → Focus)
    (hreport : AllReports (reports misuse f.snapshot)) (hchange : Effect around f none (change f)) :
    Effect around f none (f.guarded misuse change) := by
  cases misuse with
  | none => exact hchange
  | some m => exact effect_report (some m) hreport

theorem effect_adjust (a : Adjustment) :
    Effect around f none { f with meter := f.meter.adjust a } := by
  have h : Effect around f none _ := .adjust a [] allReports_nil
  rwa [List.append_nil] at h

theorem effect_attach (name value : String) : Effect around f none (f.attach name value) :=
  effect_adjust { f.meter.adjustment with
    context := f.snapshot.context.insert (attachedName name) value }

theorem effect_limit (d : Duration) : Effect around f none (f.limit d) :=
  effect_guarded _ _ (allReports_misuseOfPositive _ _ _)
    (effect_adjust { f.meter.adjustment with timeLimit := d.toWord })

/-- Counting may be reported and takes place all the same. -/
theorem effect_counted (iteration : UInt64) :
    Effect around f none
      ((f.report f.snapshot.misuseOfIncrement).update fun s => { s with iteration }) := by
  rw [report_eq]
  exact .adjust { f.meter.adjustment with iteration } _ (allReports_misuseOfIncrement _)

theorem effect_incrementBy (n : UInt64) : Effect around f none (f.incrementBy n) :=
  effect_guarded _ _ (allReports_misuseOfIncrementBy _ n) <| by
    have h : Effect around f none _ := effect_counted (Word.satAdd f.snapshot.iteration n)
    rw [report_eq] at h ⊢
    exact h

theorem effect_incrementTo (n : UInt64) : Effect around f none (f.incrementTo n) :=
  effect_guarded _ _ (allReports_misuseOfIncrementTo _ n) (effect_counted n)

theorem effect_progress : ∃ t, Effect around f t (f.progress around) ∧ t ≠ some .started := by
  unfold progress guarded
  split
  · next hmisuse =>
    have hstarted : f.snapshot.isStarted = true := by
      simpa [Snapshot.misuseOfProgress] using hmisuse
    dsimp only
    split
    · exact ⟨none, effect_self, nofun⟩
    · next hrunning =>
      simp only [Bool.or_eq_true, Bool.not_eq_true', not_or, Bool.not_eq_true,
        Bool.not_eq_false] at hrunning
      exact ⟨_, .progress hstarted hrunning.1 hrunning.2, nofun⟩
  · exact ⟨none, effect_report _ (allReports_misuseOfProgress _), nofun⟩

theorem terminal_ne_started (s : Snapshot) : some (terminal s) ≠ some Transition.started := by
  unfold terminal
  repeat' split
  all_goals nofun

/-- Every call has one of the effects, and only a start makes the transition of a start. -/
theorem perform_effect (around : Surroundings) (f : Focus) (c : Call) (hc : c ≠ .start) :
    ∃ t, Effect around f t (f.perform around c) ∧ t ≠ some .started := by
  cases c with
  | description text =>
    exact ⟨none, effect_adjust { f.meter.adjustment with description := some text }, nofun⟩
  | limit d => exact ⟨none, effect_limit d, nofun⟩
  | limitMillis n => exact ⟨none, effect_limit _, nofun⟩
  | expect n =>
    refine ⟨none, effect_guarded _ (fun f => f.update fun s => { s with expected := n }) ?_ ?_,
      nofun⟩
    · exact allReports_misuseOfPositive _ _ n
    · exact effect_adjust { f.meter.adjustment with expected := n }
  | start => exact absurd rfl hc
  | increment => exact ⟨none, effect_incrementBy 1, nofun⟩
  | incrementBy n => exact ⟨none, effect_incrementBy n, nofun⟩
  | incrementTo n => exact ⟨none, effect_incrementTo n, nofun⟩
  | progress => exact effect_progress
  | attach name value => exact ⟨none, effect_attach name _, nofun⟩
  | flag name => exact ⟨none, effect_attach name "", nofun⟩
  | attachOptional name value => exact ⟨none, effect_attach name _, nofun⟩
  | flagIf condition name =>
    cases condition
    · exact ⟨none, effect_self, nofun⟩
    · exact ⟨none, effect_attach name "", nofun⟩
  | flagEither condition yes no => exact ⟨none, effect_attach _ "", nofun⟩
  | detach name =>
    exact ⟨none, effect_adjust { f.meter.adjustment with
      context := f.snapshot.context.erase (attachedName name) }, nofun⟩
  | setPath path =>
    exact ⟨none, effect_adjust { f.meter.adjustment with okPath := some path }, nofun⟩
  | ok | okPath path | reject path | fail failure | failPath path message =>
    exact ⟨_, .resolve _ _ rfl, terminal_ne_started _⟩

/-! ## What an effect does to the meter -/

theorem meter_emit (around : Surroundings) (f : Focus) (t : Transition) :
    ∃ metrics, (f.emit around t).meter = f.meter.withMetrics metrics := by
  obtain ⟨metrics, hsampled⟩ := sampled_eq around t f
  refine ⟨metrics, ?_⟩
  rw [emit_eq, hsampled]
  rfl

theorem meter_activate :
    f.activate.meter =
      { f.meter with active := f.meter.active || !f.meter.snapshot.outcome.isResolved } := by
  obtain ⟨⟨s, session, okPath, lastProgress, active⟩, stack, events⟩ := f
  cases active <;> cases hresolved : s.outcome.isResolved <;>
    simp [activate, snapshot, hresolved]

theorem meter_deactivate : f.deactivate.meter = { f.meter with active := false } := by
  unfold deactivate
  split
  · rfl
  · next h =>
    rw [Bool.not_eq_true] at h
    rw [← h]

theorem meter_report (misuse : Option Misuse) : (f.report misuse).meter = f.meter := by
  rw [report_eq]

theorem meter_start (around : Surroundings) (f : Focus) :
    ∃ metrics, (f.start around).meter = (f.meter.started around.now).withMetrics metrics := by
  obtain ⟨metrics, h⟩ := meter_emit around
    ((f.report f.snapshot.misuseOfStart).noteStart around).activate .started
  refine ⟨metrics, ?_⟩
  rw [start, h, meter_activate]
  simp only [noteStart, update, meter_report]
  rfl

theorem meter_resolve (around : Surroundings) (f : Focus) (outcome : Outcome) (attempt : Attempt) :
    ∃ metrics, (f.resolve around outcome attempt).meter =
      (f.meter.resolved around.now outcome).withMetrics metrics := by
  unfold resolve
  obtain ⟨metrics, h⟩ := meter_emit around
    ((f.report (f.snapshot.misuseOfResolve (.inconsistent attempt))).noteOutcome around
      outcome).deactivate _
  refine ⟨metrics, ?_⟩
  rw [h, meter_deactivate]
  simp only [noteOutcome, update, meter_report]
  rfl

/-- A resolution leaves the meter inactive, so there is nothing left to release. -/
theorem drop_of_unresolved (around : Surroundings) (unwinding : Bool)
    (h : f.meter.snapshot.outcome.isResolved = false) :
    f.drop around unwinding = f.resolve around
      (.fail dropPath (if unwinding then some unwindingMessage else none)) .fail := by
  obtain ⟨metrics, hmeter⟩ := meter_resolve around f
    (.fail dropPath (if unwinding then some unwindingMessage else none)) .fail
  have hinactive : (f.resolve around (.fail dropPath
      (if unwinding then some unwindingMessage else none)) .fail).meter.active = false := by
    rw [hmeter]
    rfl
  simp only [drop, snapshot, h, deactivate, hinactive, Bool.false_eq_true, if_false]

theorem drop_effect (around : Surroundings) (f : Focus) (unwinding : Bool) :
    ∃ t, Effect around f t (f.drop around unwinding) ∧ t ≠ some .started := by
  cases hresolved : f.meter.snapshot.outcome.isResolved with
  | true =>
    have hdrop : f.drop around unwinding = f.deactivate := by simp [drop, snapshot, hresolved]
    rw [hdrop]
    exact ⟨none, .release hresolved, nofun⟩
  | false =>
    rw [drop_of_unresolved around unwinding hresolved]
    exact ⟨_, .resolve _ _ rfl, terminal_ne_started _⟩

theorem Effect.meter_change (h : Effect around f t g) :
    Meter.Change around.now f.meter g.meter := by
  cases h with
  | adjust a es => exact .adjust a
  | start =>
    obtain ⟨metrics, hmeter⟩ := meter_start around f
    rw [hmeter]
    exact .start metrics
  | progress hstarted hstopped =>
    obtain ⟨metrics, hmeter⟩ := meter_emit around (f.noteProgress around) .progress
    rw [hmeter]
    exact .progress metrics hstarted hstopped
  | resolve outcome attempt hresolved =>
    obtain ⟨metrics, hmeter⟩ := meter_resolve around f outcome attempt
    rw [hmeter]
    exact .resolve metrics outcome hresolved
  | release hresolved =>
    rw [meter_deactivate]
    exact .release hresolved

/-! ## What an effect logs -/

theorem stack_emit (t : Transition) : (f.emit around t).stack = f.stack := by
  obtain ⟨metrics, hsampled⟩ := sampled_eq around t f
  rw [emit_eq, hsampled]
  rfl

theorem events_emit (t : Transition) :
    (f.emit around t).events =
      f.events ++ transitionEvents around t (f.emit around t).snapshot := by
  rw [emit_eq]
  rfl

theorem metrics_emit (t : Transition) (h : wantsData around (f.emit around t).snapshot = true) :
    (f.emit around t).snapshot.metrics = around.metrics := by
  obtain ⟨metrics, hsampled⟩ := sampled_eq around t f
  rw [emit_eq] at h ⊢
  refine metrics_sampled around t f ?_
  rw [← h, hsampled]
  rfl

/-- Whether what has been logged since a state `f` are reports of misuse and then the events of the
transition, if there is one, told from the snapshot that is left behind. -/
def Logged (around : Surroundings) (f : Focus) (t : Option Transition) (g : Focus) : Prop :=
  ∃ es, AllReports es ∧ g.events = f.events ++ es ++ loggedEvents around t g.snapshot ∧
    (t.isSome → wantsData around g.snapshot = true → g.snapshot.metrics = around.metrics)

theorem logged_reports (es : List Event) (h : AllReports es) (hg : g.events = f.events ++ es) :
    Logged around f none g :=
  ⟨es, h, by simpa [loggedEvents] using hg, nofun⟩

theorem logged_emit (es : List Event) (h : AllReports es) (t : Transition)
    (hg : g.events = f.events ++ es) : Logged around f (some t) (g.emit around t) :=
  ⟨es, h, by rw [events_emit, hg]; rfl, fun _ => metrics_emit t⟩

theorem events_activate : f.activate.events = f.events := by
  unfold activate
  split <;> rfl

theorem events_deactivate : f.deactivate.events = f.events := by
  unfold deactivate
  split <;> rfl

/-- The transition of a resolution depends on the outcome and the times alone. -/
theorem resolve_eq (outcome : Outcome) (attempt : Attempt) :
    f.resolve around outcome attempt =
      ((f.report (f.snapshot.misuseOfResolve (.inconsistent attempt))).noteOutcome around
        outcome).deactivate.emit around (terminal (f.noteOutcome around outcome).snapshot) := by
  simp only [resolve, snapshot, meter_deactivate, noteOutcome, update, meter_report]

theorem Effect.logged (h : Effect around f t g) : Logged around f t g := by
  cases h with
  | adjust a es hes => exact logged_reports es hes rfl
  | start =>
    refine logged_emit (reports f.snapshot.misuseOfStart f.snapshot) ?_ .started ?_
    · exact allReports_misuseOfStart _
    · rw [events_activate, report_eq]
      rfl
  | progress => exact logged_emit [] allReports_nil .progress (List.append_nil _).symm
  | resolve outcome attempt =>
    rw [resolve_eq]
    refine logged_emit (reports (f.snapshot.misuseOfResolve (.inconsistent attempt)) f.snapshot)
      ?_ _ ?_
    · exact allReports_misuseOfResolve _ attempt
    · rw [events_deactivate, report_eq]
      rfl
  | release =>
    refine logged_reports [] allReports_nil ?_
    rw [events_deactivate, List.append_nil]

/-! ## What an effect does to the active meters -/

theorem stack_activate :
    f.activate.stack =
      if f.meter.active || f.snapshot.outcome.isResolved then f.stack
      else f.stack.push f.snapshot.fullId := by
  unfold activate
  split <;> rfl

theorem stack_deactivate :
    f.deactivate.stack = if f.meter.active then f.stack.remove f.snapshot.fullId else f.stack := by
  unfold deactivate
  split <;> rfl

/-- The active meters change together with the mark of the meter: a meter that becomes active is put
on top, and one that becomes inactive is taken out. -/
theorem Effect.stack_eq (h : Effect around f t g) :
    g.stack =
      if f.meter.active = g.meter.active then f.stack
      else if g.meter.active then f.stack.push f.snapshot.fullId
      else f.stack.remove f.snapshot.fullId := by
  cases h with
  | adjust a es => simp [Meter.adjust]
  | start =>
    obtain ⟨metrics, hmeter⟩ := meter_start around f
    rw [hmeter, Focus.start, stack_emit, stack_activate, report_eq]
    cases hactive : f.meter.active <;> cases hresolved : f.meter.snapshot.outcome.isResolved <;>
      simp [noteStart, update, snapshot, Meter.withMetrics, Meter.started, hactive, hresolved,
        Snapshot.fullId]
  | progress =>
    obtain ⟨metrics, hmeter⟩ := meter_emit around (f.noteProgress around) .progress
    rw [hmeter, stack_emit]
    simp [noteProgress, update, Meter.withMetrics]
  | resolve outcome attempt =>
    obtain ⟨metrics, hmeter⟩ := meter_resolve around f outcome attempt
    rw [hmeter, Focus.resolve, stack_emit, stack_deactivate, report_eq]
    cases hactive : f.meter.active <;>
      simp [noteOutcome, update, snapshot, Meter.withMetrics, Meter.resolved, hactive,
        Snapshot.fullId]
  | release =>
    rw [meter_deactivate, stack_deactivate]
    cases hactive : f.meter.active <;> simp

end Focus
end Metering
