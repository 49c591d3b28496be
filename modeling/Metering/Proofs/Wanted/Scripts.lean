import Mathlib.Data.List.Forall2
import Metering.Proofs.Script
import Metering.Proofs.Wanted.Worlds

/-!
# Proofs: scripts and the events that are wanted

A script cannot find out which events are wanted. Whatever it asks, it is told the same as where
everything is wanted, and so it does the same: the two runs have one history, end alike, and give
records that differ in the events that are not wanted and in the sampled metrics only.
-/

namespace Metering

/-- The logger behind which the same happens and before which everything is wanted. -/
def Logger.everything (l : Logger) : Logger := { l with enabled := .everything }

theorem Logger.recorded_filter (l : Logger) (p : Event → Bool) (es : List Event) :
    l.recorded (es.filter p) = (l.everything.recorded es).filter p := by
  cases hrecords : l.records <;> simp [recorded, everything, hrecords]

/-! ## Alike records -/

section

variable {α : Type}

/-- Whether an answer is another one, given where everything was wanted, except that a count leaves
out the events that are not wanted. -/
inductive Answer.Alike (enabled : Enabled) : Answer α → Answer α → Prop where
  /-- The answers are the same. -/
  | same (a : Answer α) : Alike enabled a a
  /-- The answers are counts of events. -/
  | counted (m : Marker) (es : List Event) :
    Alike enabled (.counted (Recorder.count ⟨es.filter (·.isLogged enabled)⟩ m))
      (.counted (Recorder.count ⟨es⟩ m))

/-- Whether two records are about the same, with alike answers. -/
inductive Occasion.Alike (enabled : Enabled) : Occasion α → Occasion α → Prop where
  /-- The same step was carried out. -/
  | did (step : Step α) {a a' : Answer α} (h : a.Alike enabled a') :
    Alike enabled (.did step a) (.did step a')
  /-- The closure of the same meter was entered. -/
  | entered (name : String) : Alike enabled (.entered name) (.entered name)
  /-- The same meter was dropped. -/
  | left (name : String) : Alike enabled (.left name) (.left name)

/-- Whether a record is another one, made where everything was wanted, except for the events that
are not wanted and the sampled metrics. -/
structure Record.Alike (enabled : Enabled) (r r' : Record α) : Prop where
  /-- The records are about the same. -/
  occasion : r.occasion.Alike enabled r'.occasion
  /-- Exactly the events that are not wanted are missing. -/
  events : r.events = r'.events.filter (·.isLogged enabled)
  /-- The innermost active meter is the same. -/
  current : r.current = r'.current
  /-- The snapshots are the same except for the sampled metrics. -/
  snapshot : r.snapshot.map Snapshot.unsampled = r'.snapshot.map Snapshot.unsampled

end

/-! ## Moments of a log -/

/-- Whether `n` of the first `n'` events are logged, so that both numbers name one moment. -/
def SameMoment (enabled : Enabled) (log : List Event) (n n' : Nat) : Prop :=
  ∃ es fs, log = es ++ fs ∧ n = (es.filter (·.isLogged enabled)).length ∧ n' = es.length

section

variable {enabled : Enabled} {log : List Event} {n n' : Nat}

theorem sameMoment_zero : SameMoment enabled log 0 0 := ⟨[], log, rfl, rfl, rfl⟩

theorem sameMoment_length :
    SameMoment enabled log (log.filter (·.isLogged enabled)).length log.length :=
  ⟨log, [], (List.append_nil log).symm, rfl, rfl⟩

theorem SameMoment.append (h : SameMoment enabled log n n') (es : List Event) :
    SameMoment enabled (log ++ es) n n' := by
  obtain ⟨before, after, rfl, hn, hn'⟩ := h
  exact ⟨before, after ++ es, List.append_assoc _ _ _, hn, hn'⟩

/-- What was logged after a moment is what was wanted of all that happened after it. -/
theorem SameMoment.drop_filter (h : SameMoment enabled log n n') :
    (log.filter (·.isLogged enabled)).drop n = (log.drop n').filter (·.isLogged enabled) := by
  obtain ⟨before, after, rfl, rfl, rfl⟩ := h
  rw [List.filter_append, List.drop_left, List.drop_left]

end

namespace Run

variable {α : Type}

/-! ## Alike runs -/

/-- Whether a run is another one, in which everything was wanted, except for the events that are not
wanted and the sampled metrics. -/
structure Alike (l : Logger) (r r' : Run α) : Prop where
  /-- The worlds are alike. -/
  world : World.Alike l.enabled r.world r'.world
  /-- New meters come from the same session. -/
  session : r.session = r'.session
  /-- The same meters are alive. -/
  scopes : r.scopes = r'.scopes
  /-- The records have shown the events up to one moment. -/
  shown : SameMoment l.enabled r'.world.log r.shown r'.shown
  /-- The recorder has forgotten the events up to one moment. -/
  forgotten : SameMoment l.enabled r'.world.log r.forgotten r'.forgotten
  /-- The records are alike. -/
  records : List.Forall₂ (Record.Alike l.enabled) r.records r'.records
  /-- The same happened. -/
  history : r.history = r'.history

variable {l : Logger} {r r' : Run α}

theorem Alike.find? (h : Alike l r r') (name : String) : r.find? name = r'.find? name := by
  rw [Run.find?, h.scopes, Run.find?]

theorem Alike.any_snapshot? (h : Alike l r r') (i : Nat) (p : Snapshot → Bool)
    (hp : ∀ s, p s.unsampled = p s) :
    (r.world.snapshot? i).any p = (r'.world.snapshot? i).any p := by
  have hany (s? : Option Snapshot) : (s?.map Snapshot.unsampled).any p = s?.any p := by
    cases s? with
    | none => rfl
    | some s => exact hp s
  rw [← hany, h.world.snapshot? i, hany]

theorem Alike.isStarted (h : Alike l r r') (i : Nat) : r.isStarted i = r'.isStarted i :=
  h.any_snapshot? i _ fun _ => rfl

theorem Alike.isResolved (h : Alike l r r') (i : Nat) : r.isResolved i = r'.isResolved i :=
  h.any_snapshot? i _ fun _ => rfl

theorem Alike.act (h : Alike l r r') (a : World.Action) :
    Alike l (r.act l a) (r'.act l.everything a) := by
  have hlog : (r'.act l.everything a).world.log =
      r'.world.log ++ r'.world.logged .everything a := World.log_act _ _ _
  refine ⟨h.world.act a, h.session, h.scopes, ?_, ?_, h.records, ?_⟩
  · rw [hlog]
    exact h.shown.append _
  · rw [hlog]
    exact h.forgotten.append _
  · simp only [Run.act, h.history]

theorem Alike.adopt (h : Alike l r r') (name : String) (a : World.Action) :
    Alike l (r.adopt l name a) (r'.adopt l.everything name a) := by
  have hact := h.act a
  simp only [Run.adopt, ← h.world.length_meters, ← hact.world.length_meters, ← hact.scopes]
  split
  · exact { hact with scopes := rfl }
  · exact hact

theorem Alike.record (h : Alike l r r') {occasion occasion' : Occasion α}
    (hoccasion : occasion.Alike l.enabled occasion') (meter : Option Nat) :
    Alike l (r.record occasion meter) (r'.record occasion' meter) := by
  -- Both records show what was logged since one moment.
  have hevents : r.world.log.drop r.shown =
      (r'.world.log.drop r'.shown).filter (·.isLogged l.enabled) := by
    rw [h.world.log, h.shown.drop_filter]
  have hsnapshot : (meter.bind r.world.snapshot?).map Snapshot.unsampled =
      (meter.bind r'.world.snapshot?).map Snapshot.unsampled := by
    cases meter with
    | none => rfl
    | some i => exact h.world.snapshot? i
  refine ⟨h.world, h.session, h.scopes, ?_, h.forgotten, ?_, h.history⟩
  · simp only [Run.record, h.world.log]
    exact sameMoment_length
  · refine List.rel_append h.records (.cons ?_ .nil)
    exact ⟨hoccasion, hevents, congrArg ActiveStack.current h.world.stack, hsnapshot⟩

theorem Alike.recordStep (h : Alike l r r') (step : Step α) {answer answer' : Answer α}
    (hanswer : answer.Alike l.enabled answer') (meter : Option Nat) :
    Alike l (r.recordStep step answer meter) (r'.recordStep step answer' meter) :=
  h.record (.did step hanswer) meter

theorem Alike.forget (h : Alike l r r') : Alike l (r.forget l) (r'.forget l.everything) := by
  have hmoment : SameMoment l.enabled r'.world.log r.world.log.length r'.world.log.length := by
    rw [h.world.log]
    exact sameMoment_length
  cases hrecords : l.records
  · simp only [Run.forget, Logger.everything, hrecords, Bool.false_eq_true, if_false]
    exact h
  · simp only [Run.forget, Logger.everything, hrecords, if_true]
    exact { h with shown := hmoment, forgotten := hmoment }

theorem Alike.dropAll (unwinding : Bool) (scope : List Binding) (h : Alike l r r') :
    Alike l (dropAll l unwinding scope r) (dropAll l.everything unwinding scope r') := by
  induction scope generalizing r r' with
  | nil => exact h
  | cons b scope ih => exact ih ((h.act (.drop unwinding b.2)).record (.left b.1) none)

theorem Alike.closeScope (h : Alike l r r') (unwinding : Bool) :
    Alike l (r.closeScope l unwinding) (r'.closeScope l.everything unwinding) := by
  simp only [Run.closeScope, ← h.scopes]
  exact Alike.dropAll unwinding _ { h with scopes := rfl }

theorem Alike.ensureStarted (h : Alike l r r') (i : Nat) :
    Alike l (r.ensureStarted l i) (r'.ensureStarted l.everything i) := by
  simp only [Run.ensureStarted, ← h.isStarted i]
  split
  · exact h
  · exact h.act _

theorem Alike.ensureResolved (h : Alike l r r') (i : Nat) (c : Call) :
    Alike l (r.ensureResolved l i c) (r'.ensureResolved l.everything i c) := by
  simp only [Run.ensureResolved, ← h.isResolved i]
  split
  · exact h
  · exact h.act _

/-! ## Runs that end alike -/

/-- Whether two runs are alike and end in the same way. -/
def EndsAlike (l : Logger) (p p' : Run α × Ending) : Prop := Alike l p.1 p'.1 ∧ p.2 = p'.2

variable {p p' : Run α × Ending}

theorem Alike.returned (h : Alike l r r') : EndsAlike l (r, .returned) (r', .returned) := ⟨h, rfl⟩

theorem EndsAlike.leaveExecutor (h : EndsAlike l p p') (i : Nat) (step : Step α) (e : Executor α) :
    EndsAlike l (leaveExecutor l i step e p) (leaveExecutor l.everything i step e p') := by
  obtain ⟨r, ending⟩ := p
  obtain ⟨r', ending'⟩ := p'
  obtain ⟨h, rfl⟩ : Alike l r r' ∧ ending = ending' := h
  cases ending with
  | returned =>
    simp only [Run.leaveExecutor, ← h.isResolved i]
    exact ((h.ensureResolved i e.resolution).recordStep step (.same _) (some i)).returned
  | panicked payload => exact ⟨h.ensureResolved i _, rfl⟩

theorem EndsAlike.leaveScope (h : EndsAlike l p p') (step : Step α) :
    EndsAlike l (leaveScope l step p) (leaveScope l.everything step p') := by
  obtain ⟨r, ending⟩ := p
  obtain ⟨r', ending'⟩ := p'
  obtain ⟨h, rfl⟩ : Alike l r r' ∧ ending = ending' := h
  cases ending with
  | returned => exact ((h.closeScope false).recordStep step (.same _) none).returned
  | panicked payload => exact ⟨h.closeScope true, rfl⟩

theorem EndsAlike.leaveCatch (h : EndsAlike l p p') (step : Step α) :
    EndsAlike l (leaveCatch l step p) (leaveCatch l.everything step p') := by
  obtain ⟨r, ending⟩ := p
  obtain ⟨r', ending'⟩ := p'
  obtain ⟨h, rfl⟩ : Alike l r r' ∧ ending = ending' := h
  exact ((h.closeScope ending.unwinding).recordStep step (.same _) none).returned

theorem EndsAlike.leaveThread (h : EndsAlike l p p') (step : Step α) {outer outer' : Run α}
    (houter : Alike l outer outer') :
    EndsAlike l (leaveThread l step outer p) (leaveThread l.everything step outer' p') := by
  obtain ⟨r, ending⟩ := p
  obtain ⟨r', ending'⟩ := p'
  obtain ⟨h, rfl⟩ : Alike l r r' ∧ ending = ending' := h
  have hleft := (h.closeScope ending.unwinding).act .leaveThread
  have hback : Alike l
      { (r.closeScope l ending.unwinding).act l .leaveThread with
        scopes := outer.scopes, session := outer.session }
      { (r'.closeScope l.everything ending.unwinding).act l.everything .leaveThread with
        scopes := outer'.scopes, session := outer'.session } :=
    { hleft with scopes := houter.scopes, session := houter.session }
  exact (hback.recordStep step (.same _) none).returned

end Run

open Run

mutual

theorem Step.run_alike {α : Type} (l : Logger) (r r' : Run α) (h : Alike l r r') :
    (step : Step α) → EndsAlike l (step.run l r) (step.run l.everything r')
  | .setClock nanos | .advance nanos | .setMetrics m => (h.act _).returned
  | .useSession k => Alike.returned { h with session := rfl }
  | .create name category operation => by
    have hadopt := h.adopt name (.create r.session category operation)
    simp only [Step.run, ← h.session, ← hadopt.find? name]
    exact (hadopt.recordStep _ (.same _) _).returned
  | .createFor name typeName => by
    have hadopt := h.adopt name (.create r.session typeName none)
    simp only [Step.run, ← h.session, ← hadopt.find? name]
    exact (hadopt.recordStep _ (.same _) _).returned
  | .createPart name partName newName => by
    simp only [Step.run, ← h.find? name]
    cases r.find? name with
    | none => exact h.returned
    | some i =>
      have hadopt := h.adopt newName (.createPart i partName)
      simp only [← hadopt.find? newName]
      exact (hadopt.recordStep _ (.same _) _).returned
  | .call name c => by
    simp only [Step.run, ← h.find? name]
    cases r.find? name with
    | none => exact h.returned
    | some i => exact ((h.act (.call i c)).recordStep _ (.same _) _).returned
  | .look name => by
    simp only [Step.run, ← h.find? name]
    cases r.find? name with
    | none => exact h.returned
    | some i => exact (h.recordStep _ (.same _) _).returned
  | .drop name => by
    simp only [Step.run, ← h.find? name]
    cases r.find? name with
    | none => exact (h.recordStep _ (.same _) _).returned
    | some i =>
      have hdropped : Alike l
          { r.act l (.drop false i) with scopes := unbindScopes name r.scopes }
          { r'.act l.everything (.drop false i) with scopes := unbindScopes name r'.scopes } :=
        { h.act (.drop false i) with scopes := by rw [h.scopes] }
      exact (hdropped.recordStep _ (.same _) _).returned
  | .execute name e body => by
    simp only [Step.run, ← h.find? name]
    cases r.find? name with
    | none => exact h.returned
    | some i =>
      have hentered := (h.ensureStarted i).record (.entered name) none
      exact (runSteps_alike l _ _ hentered body).leaveExecutor i _ e
  | .panic payload => ⟨h, rfl⟩
  | .scope body =>
    have hopen : Alike l r.openScope r'.openScope :=
      { h with scopes := congrArg (List.cons []) h.scopes }
    (runSteps_alike l _ _ hopen body).leaveScope _
  | .catchPanic body =>
    have hopen : Alike l r.openScope r'.openScope :=
      { h with scopes := congrArg (List.cons []) h.scopes }
    (runSteps_alike l _ _ hopen body).leaveCatch _
  | .thread body =>
    have henter : Alike l (r.enterThread l) (r'.enterThread l.everything) :=
      { h.act .enterThread with scopes := rfl }
    (runSteps_alike l _ _ henter body).leaveThread _ h
  | .count m => by
    have hcounted : Answer.Alike (α := α) l.enabled
        (.counted (Recorder.count ⟨l.recorded (r.world.log.drop r.forgotten)⟩ m))
        (.counted (Recorder.count ⟨l.everything.recorded (r'.world.log.drop r'.forgotten)⟩ m)) := by
      rw [h.world.log, h.forgotten.drop_filter, l.recorded_filter]
      exact .counted m _
    exact (h.recordStep _ hcounted none).returned
  | .clear => (h.forget.recordStep _ (.same _) none).returned
  | .showConfig => by
    simp only [Step.run, ← h.session, ← h.world.sessions]
    exact (h.recordStep _ (.same _) none).returned
  | .showId => by
    simp only [Step.run, ← h.session, ← h.world.sessions]
    exact (h.recordStep _ (.same _) none).returned

theorem runSteps_alike {α : Type} (l : Logger) (r r' : Run α) (h : Alike l r r') :
    (steps : List (Step α)) → EndsAlike l (runSteps l steps r) (runSteps l.everything steps r')
  | [] => h.returned
  | step :: steps => by
    obtain ⟨hstep, hending⟩ := Step.run_alike l r r' h step
    simp only [runSteps]
    rcases hr : step.run l r with ⟨s, ending⟩
    rcases hr' : step.run l.everything r' with ⟨s', ending'⟩
    rw [hr, hr'] at hstep hending
    obtain rfl : ending = ending' := hending
    cases ending with
    | returned => exact runSteps_alike l s s' hstep steps
    | panicked payload => exact ⟨hstep, rfl⟩

end

/-! ## Scripts -/

section

variable {α : Type} (l : Logger) (steps : List (Step α)) {w : World} (hw : w.log = [])

include hw

theorem runScript_alike : EndsAlike l (runScript l steps w) (runScript l.everything steps w) := by
  have hstart : Alike l ({ world := w } : Run α) { world := w } :=
    ⟨World.alike_self hw, rfl, rfl, sameMoment_zero, sameMoment_zero, .nil, rfl⟩
  obtain ⟨hsteps, hending⟩ := runSteps_alike l _ _ hstart steps
  refine ⟨?_, hending⟩
  simp only [runScript, ← hending]
  exact hsteps.closeScope _

theorem worldAt_alike (k : Nat) :
    World.Alike l.enabled (worldAt l steps w k) (worldAt l.everything steps w k) := by
  have hhistory : historyAt l steps w k = historyAt l.everything steps w k := by
    rw [historyAt, historyAt, (runScript_alike l steps hw).1.history]
  rw [worldAt, worldAt, hhistory]
  exact (World.alike_self hw).acts _

end

/-- It cannot be observed which events are wanted. A script ends as it does where everything is
wanted, after the same history, with records that differ in the missing events and the sampled
metrics only. The log holds the reports of misuse and the events that are wanted, in their order.
After every action the worlds are alike: all but the metrics of the meters is the same. -/
theorem unwanted_events_unobservable {α : Type} (l : Logger) (steps : List (Step α)) (w : World)
    (hw : w.log = []) :
    (runScript l steps w).2 = (runScript l.everything steps w).2 ∧
      (runScript l steps w).1.history = (runScript l.everything steps w).1.history ∧
      List.Forall₂ (Record.Alike l.enabled) (runScript l steps w).1.records
        (runScript l.everything steps w).1.records ∧
      (runScript l steps w).1.world.log =
        (runScript l.everything steps w).1.world.log.filter (fun e =>
          e.marker.isDiagnostic || l.enabled e.level e.category) ∧
      ∀ k, World.Alike l.enabled (worldAt l steps w k) (worldAt l.everything steps w k) := by
  obtain ⟨hrun, hending⟩ := runScript_alike l steps hw
  exact ⟨hending, hrun.history, hrun.records, hrun.world.log, worldAt_alike l steps hw⟩

/-- Where nothing is wanted, the success of a meter that was not started is just reported. -/
theorem unwanted_events_unobservable_reports :
    (runScript (.filtered none []) ([.create "m" "c" none, .call "m" .ok] : List (Step Unit))
      { sessions := [{ id := "s" }] }).1.world.log.map Event.marker = [.inconsistent .ok] ∧
    (runScript (Logger.filtered none []).everything
      ([.create "m" "c" none, .call "m" .ok] : List (Step Unit))
      { sessions := [{ id := "s" }] }).1.world.log.map Event.marker =
        [.inconsistent .ok, .message .ok, .data .ok] := by
  obtain ⟨-, -, -, hlog, -⟩ := unwanted_events_unobservable (.filtered none [])
    ([.create "m" "c" none, .call "m" .ok] : List (Step Unit)) { sessions := [{ id := "s" }] } rfl
  refine ⟨?_, rfl⟩
  rw [hlog]
  rfl

end Metering
