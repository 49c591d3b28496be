import Metering.Proofs.Meter

/-!
# Proofs: calls and the events that are wanted

Which events are wanted decides what a call logs and whether it samples the metrics, and nothing
else. A call is compared here with the same call where everything is wanted. Both log the same
events, except that those that are not wanted are missing, and they leave meters that differ in the
sampled metrics alone. No event tells the difference, because the metrics are sampled whenever an
event is logged that shows them.
-/

namespace Metering

/-- Everything is wanted. -/
def Enabled.everything : Enabled := fun _ _ => true

/-- Whether an event is logged. Reports of misuse always are. -/
def Event.isLogged (enabled : Enabled) (e : Event) : Bool :=
  e.marker.isDiagnostic || enabled e.level e.category

/-- The snapshot without the metrics that were sampled. -/
def Snapshot.unsampled (s : Snapshot) : Snapshot := s.withMetrics .zero

/-- The meter without the metrics that were sampled. -/
def Meter.unsampled (m : Meter) : Meter := m.withMetrics .zero

theorem Meter.unsampled_withMetrics (m : Meter) (metrics : Metrics) :
    (m.withMetrics metrics).unsampled = m.unsampled := rfl

/-- A meter that is the same without its metrics has other metrics at most. -/
theorem Meter.eq_withMetrics {m m' : Meter} (h : m.unsampled = m'.unsampled) :
    m' = m.withMetrics m'.snapshot.metrics :=
  calc
    m' = m'.unsampled.withMetrics m'.snapshot.metrics := rfl
    _ = m.unsampled.withMetrics m'.snapshot.metrics := by rw [h]
    _ = m.withMetrics m'.snapshot.metrics := rfl

/-- The surroundings in which everything is wanted. -/
def Surroundings.everything (around : Surroundings) : Surroundings :=
  { around with enabled := .everything }

namespace Message

/-- A readable message that needs no metrics does not show them. -/
theorem render_withMetrics (t : Transition) (c : Config) (s : Snapshot) (metrics : Metrics)
    (hprint : c.printStatus = true) (hneeds : c.needsMetrics = false) :
    render t c (s.withMetrics metrics) = render t c s := by
  simp only [Config.needsMetrics, hprint, Bool.true_and, Bool.or_eq_false_iff] at hneeds
  obtain ⟨hload, hmemory⟩ := hneeds
  have hmemoryPart (s : Snapshot) : memoryPart c s = "" := by
    simp only [memoryPart, hmemory, Bool.false_and, Bool.false_eq_true, if_false]
  have hloadPart (s : Snapshot) : loadPart c s = "" := by
    simp only [loadPart, hload, Bool.false_eq_true, if_false]
  simp only [render, hmemoryPart, hloadPart]
  rfl

end Message

namespace Focus

/-! ## The events of a transition -/

section

variable (around : Surroundings) (t : Transition)

/-- A readable message that needs no metrics is the same for all metrics. -/
theorem messageEvent_withMetrics (s : Snapshot) (metrics : Metrics)
    (hwants : wantsMessage around t s = true) (hneeds : around.config.needsMetrics = false) :
    messageEvent around t (s.withMetrics metrics) = messageEvent around t s := by
  rw [wantsMessage, Bool.and_eq_true] at hwants
  have hcategory : (s.withMetrics metrics).category = s.category := rfl
  simp only [messageEvent, Message.render_withMetrics t _ s metrics hwants.1 hneeds, hcategory]

/-- The events of a transition are those of the sampled metrics, whether they are sampled or not. -/
theorem transitionEvents_sampled (f : Focus) :
    transitionEvents around t (f.sampled around t).snapshot =
      transitionEvents around t (f.snapshot.withMetrics around.metrics) := by
  have hupdate : (f.update (·.withMetrics around.metrics)).snapshot =
      f.snapshot.withMetrics around.metrics := rfl
  cases hsamples : samples around t f.snapshot with
  | true => simp only [sampled, hsamples, if_true, hupdate]
  | false =>
    -- Without data only a readable message may be wanted, and it does not show the metrics.
    simp only [sampled, hsamples, Bool.false_eq_true, if_false]
    simp only [samples, Bool.or_eq_false_iff] at hsamples
    obtain ⟨hdata, hmessage⟩ := hsamples
    have hdata' : wantsData around (f.snapshot.withMetrics around.metrics) = false := hdata
    have hsame : wantsMessage around t (f.snapshot.withMetrics around.metrics) =
        wantsMessage around t f.snapshot := rfl
    simp only [transitionEvents, hdata, hdata', hsame, Bool.false_eq_true, if_false]
    cases hwants : wantsMessage around t f.snapshot with
    | false => simp only [Bool.false_eq_true, if_false]
    | true =>
      rw [hwants, Bool.true_and] at hmessage
      rw [messageEvent_withMetrics around t f.snapshot _ hwants hmessage]

theorem filter_wanted (wanted : Bool) (e : Event) (p : Event → Bool) :
    (if wanted then [e] else []).filter p = if wanted && p e then [e] else [] := by
  cases wanted <;> cases h : p e <;> simp [h]

/-- What is wanted of a transition is a part of all that could be wanted. -/
theorem transitionEvents_eq_filter (s : Snapshot) :
    transitionEvents around t s =
      (transitionEvents around.everything t s).filter (·.isLogged around.enabled) := by
  have hmessage : messageEvent around.everything t s = messageEvent around t s := rfl
  have hdata : dataEvent around.everything t s = dataEvent around t s := rfl
  have hall : wantsMessage around.everything t s = around.config.printStatus := Bool.and_true _
  have hwantsMessage : (wantsMessage around.everything t s &&
      (messageEvent around t s).isLogged around.enabled) = wantsMessage around t s := by
    rw [hall]
    rfl
  have hwantsData : (wantsData around.everything s &&
      (dataEvent around t s).isLogged around.enabled) = wantsData around s := rfl
  simp only [transitionEvents, List.filter_append, filter_wanted, hmessage, hdata, hwantsMessage,
    hwantsData]

end

/-! ## Alike states -/

/-- Whether a state in the middle of a call differs from another one, in which everything was
wanted, in the metrics and in the missing events only. -/
structure Alike (enabled : Enabled) (f f' : Focus) : Prop where
  /-- The meters differ in the sampled metrics at most. -/
  meter : f.meter.unsampled = f'.meter.unsampled
  /-- The same meters are active. -/
  stack : f.stack = f'.stack
  /-- Exactly the events that are not wanted are missing. -/
  events : f.events = f'.events.filter (·.isLogged enabled)

variable {around : Surroundings} {enabled : Enabled} {f f' : Focus}

theorem Alike.exists_eq (h : Alike enabled f f') :
    ∃ metrics events, f' = ⟨f.meter.withMetrics metrics, f.stack, events⟩ := by
  refine ⟨f'.meter.snapshot.metrics, f'.events, ?_⟩
  rw [← Meter.eq_withMetrics h.meter, h.stack]

/-- A change that has nothing to do with the metrics keeps states alike. -/
theorem Alike.change (h : Alike enabled f f') (change : Meter → Meter)
    (hchange : ∀ m metrics, change (m.withMetrics metrics) = (change m).withMetrics metrics) :
    Alike enabled { f with meter := change f.meter } { f' with meter := change f'.meter } := by
  obtain ⟨metrics, events, rfl⟩ := h.exists_eq
  refine ⟨?_, rfl, h.events⟩
  rw [hchange, Meter.unsampled_withMetrics]

theorem Alike.update (h : Alike enabled f f') (change : Snapshot → Snapshot)
    (hchange : ∀ s metrics, change (s.withMetrics metrics) = (change s).withMetrics metrics) :
    Alike enabled (f.update change) (f'.update change) :=
  h.change (fun m => { m with snapshot := change m.snapshot }) fun m metrics => by
    rw [Meter.withMetrics, hchange]
    rfl

theorem filter_eq_self_of_allReports {es : List Event} (hes : AllReports es) :
    es.filter (·.isLogged enabled) = es := by
  rw [List.filter_eq_self]
  intro e he
  rw [Event.isLogged, hes e he, Bool.true_or]

theorem reports_withMetrics (misuse : Option Misuse) (s : Snapshot) (metrics : Metrics) :
    reports misuse (s.withMetrics metrics) = reports misuse s := rfl

theorem Alike.report (h : Alike enabled f f') (misuse : Option Misuse)
    (hreport : AllReports (reports misuse f.snapshot)) :
    Alike enabled (f.report misuse) (f'.report misuse) := by
  obtain ⟨metrics, events, rfl⟩ := h.exists_eq
  simp only [report_eq]
  refine ⟨h.meter, h.stack, ?_⟩
  have hevents : f.events = events.filter (·.isLogged enabled) := h.events
  have hsame : reports misuse (snapshot ⟨f.meter.withMetrics metrics, f.stack, events⟩) =
      reports misuse f.snapshot := reports_withMetrics misuse f.snapshot metrics
  simp only [hsame, List.filter_append, filter_eq_self_of_allReports hreport, hevents]

theorem Alike.guarded (h : Alike enabled f f') (misuse : Option Misuse)
    {change change' : Focus → Focus}
    (hreport : AllReports (reports misuse f.snapshot))
    (hchange : Alike enabled (change f) (change' f')) :
    Alike enabled (f.guarded misuse change) (f'.guarded misuse change') := by
  cases misuse with
  | none => exact hchange
  | some m => exact h.report (some m) hreport

theorem alike_ite {c : Prop} [Decidable c] {g g' : Focus} (h : Alike enabled f f')
    (h' : Alike enabled g g') : Alike enabled (if c then f else g) (if c then f' else g') := by
  split
  · exact h
  · exact h'

theorem Alike.activate (h : Alike enabled f f') : Alike enabled f.activate f'.activate := by
  obtain ⟨metrics, events, rfl⟩ := h.exists_eq
  refine ⟨?_, ?_, ?_⟩
  · simp only [meter_activate]
    rfl
  · simp only [stack_activate]
    rfl
  · simp only [events_activate]
    exact h.events

theorem Alike.deactivate (h : Alike enabled f f') : Alike enabled f.deactivate f'.deactivate := by
  obtain ⟨metrics, events, rfl⟩ := h.exists_eq
  refine ⟨?_, ?_, ?_⟩
  · simp only [meter_deactivate]
    rfl
  · simp only [stack_deactivate]
    rfl
  · simp only [events_deactivate]
    exact h.events

/-- A transition keeps states alike: they may come to differ in the metrics, but only where no event
shows them. -/
theorem Alike.emit (h : Alike around.enabled f f') (t : Transition) :
    Alike around.enabled (f.emit around t) (f'.emit around.everything t) := by
  obtain ⟨metrics, events, rfl⟩ := h.exists_eq
  obtain ⟨m, hm⟩ := meter_emit around f t
  obtain ⟨m', hm'⟩ :=
    meter_emit around.everything ⟨f.meter.withMetrics metrics, f.stack, events⟩ t
  refine ⟨?_, ?_, ?_⟩
  · rw [hm, hm', Meter.unsampled_withMetrics, Meter.unsampled_withMetrics,
      Meter.unsampled_withMetrics]
  · simp only [stack_emit]
  · have hevents : f.events = events.filter (·.isLogged around.enabled) := h.events
    have hlogged : transitionEvents around t (f.snapshot.withMetrics around.metrics) =
        (transitionEvents around.everything t (f.snapshot.withMetrics around.metrics)).filter
          (·.isLogged around.enabled) := transitionEvents_eq_filter around t _
    simp only [emit_eq, transitionEvents_sampled, List.filter_append, hevents, hlogged]
    rfl

/-! ## Calls keep states alike -/

theorem Alike.start (h : Alike around.enabled f f') :
    Alike around.enabled (f.start around) (f'.start around.everything) := by
  obtain ⟨metrics, events, rfl⟩ := h.exists_eq
  have hreport := h.report f.snapshot.misuseOfStart (allReports_misuseOfStart _)
  have hnoted := hreport.change (fun m => { m with
    snapshot := { m.snapshot with startTime := around.now, lastTime := around.now }
    lastProgress := around.now }) fun _ _ => rfl
  exact hnoted.activate.emit .started

theorem Alike.resolve (h : Alike around.enabled f f') (outcome : Outcome) (attempt : Attempt) :
    Alike around.enabled (f.resolve around outcome attempt)
      (f'.resolve around.everything outcome attempt) := by
  obtain ⟨metrics, events, rfl⟩ := h.exists_eq
  have hreport := h.report (f.snapshot.misuseOfResolve (.inconsistent attempt))
    (allReports_misuseOfResolve _ attempt)
  have hnoted := hreport.update (fun s => { s with
    stopTime := around.now, lastTime := around.now, outcome := outcome }) fun _ _ => rfl
  rw [resolve_eq, resolve_eq]
  exact hnoted.deactivate.emit _

theorem Alike.progress (h : Alike around.enabled f f') :
    Alike around.enabled (f.progress around) (f'.progress around.everything) := by
  obtain ⟨metrics, events, rfl⟩ := h.exists_eq
  have hnoted := h.change (fun m => { m with
    snapshot := { m.snapshot with lastTime := around.now }
    lastProgress := around.now }) fun _ _ => rfl
  exact h.guarded f.snapshot.misuseOfProgress (allReports_misuseOfProgress _)
    (alike_ite h (hnoted.emit .progress))

theorem Alike.attach (h : Alike enabled f f') (name value : String) :
    Alike enabled (f.attach name value) (f'.attach name value) :=
  h.update _ fun _ _ => rfl

theorem Alike.limit (h : Alike enabled f f') (d : Duration) :
    Alike enabled (f.limit d) (f'.limit d) :=
  h.guarded _ (allReports_misuseOfPositive _ _ _)
    (h.update _ fun _ _ => rfl)

theorem Alike.counted (h : Alike enabled f f') (change : Snapshot → Snapshot)
    (hchange : ∀ s metrics, change (s.withMetrics metrics) = (change s).withMetrics metrics) :
    Alike enabled ((f.report f.snapshot.misuseOfIncrement).update change)
      ((f'.report f'.snapshot.misuseOfIncrement).update change) := by
  obtain ⟨metrics, events, rfl⟩ := h.exists_eq
  exact (h.report f.snapshot.misuseOfIncrement (allReports_misuseOfIncrement _)).update change
    hchange

theorem Alike.incrementBy (h : Alike enabled f f') (n : UInt64) :
    Alike enabled (f.incrementBy n) (f'.incrementBy n) :=
  h.guarded _ (allReports_misuseOfIncrementBy _ n)
    (h.counted _ fun _ _ => rfl)

theorem Alike.incrementTo (h : Alike enabled f f') (n : UInt64) :
    Alike enabled (f.incrementTo n) (f'.incrementTo n) := by
  have hcounted := h.counted (fun s => { s with iteration := n }) fun _ _ => rfl
  obtain ⟨metrics, events, rfl⟩ := h.exists_eq
  exact h.guarded (f.snapshot.misuseOfIncrementTo n) (allReports_misuseOfIncrementTo _ n) hcounted

theorem Alike.perform (h : Alike around.enabled f f') (c : Call) :
    Alike around.enabled (f.perform around c) (f'.perform around.everything c) := by
  have hpath : f.meter.okPath = f'.meter.okPath :=
    show f.meter.unsampled.okPath = f'.meter.unsampled.okPath by rw [h.meter]
  cases c with
  | description text =>
    exact h.update (fun s => { s with description := some text }) fun _ _ => rfl
  | limit d => exact h.limit d
  | limitMillis n => exact h.limit _
  | expect n =>
    simp only [Focus.perform]
    exact h.guarded _ (allReports_misuseOfPositive _ _ n)
      (h.update _ fun _ _ => rfl)
  | start => exact h.start
  | increment => exact h.incrementBy 1
  | incrementBy n => exact h.incrementBy n
  | incrementTo n => exact h.incrementTo n
  | progress => exact h.progress
  | attach name value => exact h.attach name _
  | flag name => exact h.attach name ""
  | attachOptional name value => exact h.attach name _
  | flagIf condition name => exact alike_ite (h.attach name "") h
  | flagEither condition yes no => exact h.attach _ ""
  | detach name =>
    exact h.update (fun s => { s with context := s.context.erase (attachedName name) })
      fun _ _ => rfl
  | setPath path => exact h.change (fun m => { m with okPath := some path }) fun _ _ => rfl
  | ok =>
    simp only [Focus.perform, hpath]
    exact h.resolve _ .ok
  | okPath path => exact h.resolve _ .ok
  | reject path => exact h.resolve _ .reject
  | fail failure => exact h.resolve _ .fail
  | failPath path message => exact h.resolve _ .fail

theorem Alike.drop (h : Alike around.enabled f f') (unwinding : Bool) :
    Alike around.enabled (f.drop around unwinding) (f'.drop around.everything unwinding) := by
  have hresolve := h.resolve
    (.fail dropPath (if unwinding then some unwindingMessage else none)) .fail
  obtain ⟨metrics, events, rfl⟩ := h.exists_eq
  have hresolved : Alike around.enabled
      (if f.snapshot.outcome.isResolved then f else f.resolve around _ .fail) _ :=
    alike_ite h hresolve
  exact hresolved.deactivate

end Focus
end Metering
