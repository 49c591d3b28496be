import Metering.Proofs.Lifecycle

/-!
# Proofs: what the messages of a running operation show of an outcome

A readable message shows an outcome in two places: the path behind the label, and the message of a
failure. The path is left out as long as the operation runs; the message of a failure is not. So the
message of a start or of a report of progress tells two outcomes apart exactly if their failure
messages differ, and it never tells their paths.

A report of progress is made before any resolution, so there is nothing to show. A start may come
after one: the operation that failed and is started again shows what it failed with.
-/

namespace Metering

/-- The snapshot with another outcome. -/
def Snapshot.withOutcome (s : Snapshot) (outcome : Outcome) : Snapshot := { s with outcome }

namespace Message

/-! ## One message -/

/-- What stands in front of the message of a failure while the operation runs. -/
def runningFront (t : Transition) (c : Config) (s : Snapshot) : String :=
  t.label ++ ": " ++ namePart c s ++ positionPart c s ++ descriptionPart s ++ timePart t s ++
    iterationPart s

/-- What stands behind the message of a failure. -/
def runningBack (c : Config) (s : Snapshot) : String :=
  contextPart s ++ memoryPart c s ++ loadPart c s

variable {t : Transition}

theorem render_of_running (ht : t.isTerminal = false) (c : Config) (s : Snapshot) :
    render t c s = runningFront t c s ++ failurePart s ++ runningBack c s := by
  have hpath : pathPart t s = "" := by rw [pathPart, ht]; rfl
  rw [render, hpath, String.append_empty]
  simp only [runningFront, runningBack, String.append_assoc]

/-- Another message makes another part, and so does none. -/
theorem failurePart_eq_iff {s s' : Snapshot} :
    failurePart s = failurePart s' ↔ s.outcome.failMessage = s'.outcome.failMessage := by
  have hne (m : String) : "; " ++ m ≠ "" := by simp [String.append_eq_empty_iff]
  unfold failurePart
  cases s.outcome.failMessage with
  | none =>
    cases s'.outcome.failMessage with
    | none => exact iff_of_true rfl rfl
    | some m' => exact iff_of_false (hne m').symm nofun
  | some m =>
    cases s'.outcome.failMessage with
    | none => exact iff_of_false (hne m) nofun
    | some m' => rw [String.append_right_inj, Option.some.injEq]

/-- While the operation runs, its message shows the failure message of the outcome and nothing else
of it. -/
theorem render_withOutcome_eq_iff (ht : t.isTerminal = false) (c : Config) (s : Snapshot)
    (o o' : Outcome) :
    render t c (s.withOutcome o) = render t c (s.withOutcome o') ↔
      o.failMessage = o'.failMessage := by
  have hfront (o : Outcome) : runningFront t c (s.withOutcome o) = runningFront t c s := rfl
  have hback (o : Outcome) : runningBack c (s.withOutcome o) = runningBack c s := rfl
  rw [render_of_running ht, render_of_running ht, hfront, hfront, hback, hback,
    String.append_left_inj, String.append_right_inj, failurePart_eq_iff]
  rfl

end Message

theorem Affixes.wrap_inj {a : Affixes} {text text' : String} :
    a.wrap text = a.wrap text' ↔ text = text' := by
  rw [wrap, wrap, String.append_left_inj, String.append_right_inj]

/-! ## Messages in runs -/

namespace Focus

variable {around : Surroundings} {f g : Focus} {t : Transition}

/-- As long as the operation runs, its transitions leave the outcome as it was, and progress is
reported without an outcome only. -/
theorem Effect.outcome_of_running (h : Effect around f (some t) g) (hf : f.meter.IsCoherent)
    (ht : t.isTerminal = false) :
    g.snapshot.outcome = f.snapshot.outcome ∧ (t = .progress → f.snapshot.outcome = .unset) := by
  cases h with
  | start =>
    obtain ⟨metrics, hmeter⟩ := meter_start around f
    refine ⟨?_, nofun⟩
    rw [snapshot, hmeter]
    rfl
  | progress hstarted hstopped =>
    obtain ⟨metrics, hmeter⟩ := meter_emit around (f.noteProgress around) .progress
    refine ⟨?_, fun _ => isResolved_eq_false_iff.mp (hf.trans hstopped)⟩
    rw [snapshot, hmeter]
    rfl
  | resolve outcome attempt =>
    rw [Deed.isTerminal_terminal] at ht
    cases ht

end Focus

namespace World

/-- A readable message that an action logs is that of a transition that its target makes. -/
theorem messageEvent_of_mem_logged (enabled : Enabled) (w : World) (a : Action) (e : Event)
    (t : Transition) (he : e ∈ w.logged enabled a) (ht : e.marker = .message t) :
    ∃ i m session g, a.target? = some i ∧ w.meters[i]? = some m ∧
      w.sessions[m.session]? = some session ∧
      Focus.Effect (w.surroundings enabled session) ⟨m, w.stack, []⟩ (some t) g ∧
      w.act enabled a = w.affected i g ∧
      e = Focus.messageEvent (w.surroundings enabled session) t g.snapshot := by
  have hreport {es : List Event} (hes : Focus.AllReports es) : e ∉ es := by
    intro hmem
    have hdiagnostic := hes e hmem
    rw [ht] at hdiagnostic
    cases hdiagnostic
  rcases log_act_cases enabled w a with
    ⟨es, hes, hlog⟩ | ⟨i, m, session, made, g, hi, hm, hsession, heffect, hact⟩
  · rw [logged, hlog, List.drop_left] at he
    exact absurd he (hreport hes)
  · rw [logged, hact, affected, List.drop_left] at he
    obtain ⟨es, hes, hevents, -⟩ := heffect.logged
    rw [hevents, List.nil_append] at he
    cases made with
    | none =>
      rw [Focus.loggedEvents, List.append_nil] at he
      exact absurd he (hreport hes)
    | some t' =>
      obtain ⟨rfl, hevent⟩ := Focus.message_eq_of_mem es hes t' g.snapshot he ht
      exact ⟨i, m, session, g, hi, hm, hsession, heffect, hact, hevent⟩

end World

/-- The message of a start or of a report of progress depends on the outcome through the message of
a failure alone: outcomes with the same failure message, or both without one, give the same text,
and all others give different texts. So in the run of a script no path is shown before the end, and
a report of progress shows nothing of an outcome, because there is none yet. But the message of a
start shows the outcome that its meter had before, if this was a failure with a message. -/
theorem running_messages_show_failures {α : Type} (l : Logger) (steps : List (Step α)) (w : World)
    (hw : w.Untouched) :
    (∀ (t : Transition) (c : Config) (s : Snapshot) (o o' : Outcome), t.isTerminal = false →
      (Message.render t c (s.withOutcome o) = Message.render t c (s.withOutcome o') ↔
        o.failMessage = o'.failMessage)) ∧
      ∀ (k : Nat) (a : World.Action), (runScript l steps w).1.history[k]? = some a →
        ∀ e ∈ (worldAt l steps w k).logged l.enabled a,
        ∀ t, e.marker = .message t → t.isTerminal = false →
        ∃ i m m' session, a.target? = some i ∧ (worldAt l steps w k).meters[i]? = some m ∧
          (worldAt l steps w (k + 1)).meters[i]? = some m' ∧
          (worldAt l steps w (k + 1)).sessions[m'.session]? = some session ∧
          m'.snapshot.outcome = m.snapshot.outcome ∧
          (t = .progress → m.snapshot.outcome = .unset) ∧
          ∀ o, e.message = session.config.messageAffixes.wrap
              (Message.render t session.config (m'.snapshot.withOutcome o)) ↔
            o.failMessage = m.snapshot.outcome.failMessage := by
  refine ⟨fun t c s o o' ht => Message.render_withOutcome_eq_iff ht c s o o', ?_⟩
  intro k a ha e he t ht hrunning
  obtain ⟨i, m, session, g, hi, hm, hsession, heffect, hact, rfl⟩ :=
    (worldAt l steps w k).messageEvent_of_mem_logged l.enabled a e t he ht
  obtain ⟨htarget, hhome⟩ := World.affected_target hm hsession heffect
  rw [← hact, ← worldAt_succ l steps w ha] at htarget hhome
  have hcoherent : m.IsCoherent :=
    w.isCoherent_acts l.enabled hw (historyAt l steps w k) m (List.mem_of_getElem? hm)
  obtain ⟨houtcome, hunset⟩ := heffect.outcome_of_running hcoherent hrunning
  refine ⟨i, m, g.meter, session, hi, hm, htarget, hhome, houtcome, hunset, fun o => ?_⟩
  have hshown : (Focus.messageEvent ((worldAt l steps w k).surroundings l.enabled session) t
      g.snapshot).message = session.config.messageAffixes.wrap (Message.render t session.config
        (g.meter.snapshot.withOutcome m.snapshot.outcome)) := by
    exact congrArg (fun o => session.config.messageAffixes.wrap
      (Message.render t session.config (g.meter.snapshot.withOutcome o))) houtcome
  rw [hshown, Affixes.wrap_inj, Message.render_withOutcome_eq_iff hrunning, eq_comm]

/-- A meter that failed and is started again. -/
def startedAfterFailure : List (Step Unit) :=
  [.create "m" "c" none, .call "m" .start, .call "m" (.failPath "p" "disk full"), .call "m" .start]

/-- The second start shows the message of the failure, and would show it with any other path. -/
theorem running_messages_show_failures_restart :
    ∃ e ∈ (worldAt Logger.recorder startedAfterFailure { sessions := [{ id := "s" }] } 3).logged
        Logger.recorder.enabled (.call 0 .start),
      e.marker = .message .started ∧ e.message = "STARTED: c; disk full" ∧
        ∃ s : Snapshot, ∀ o,
          e.message = ({} : Affixes).wrap (Message.render .started {} (s.withOutcome o)) ↔
            o.failMessage = some "disk full" := by
  obtain ⟨-, hruns⟩ := running_messages_show_failures Logger.recorder startedAfterFailure
    { sessions := [{ id := "s" }] } ⟨rfl, rfl, rfl, by simp⟩
  obtain ⟨i, m, m', session, hi, hm, hm', hsession, -, -, hshown⟩ :=
    hruns 3 (.call 0 .start) rfl _ (List.mem_of_getElem? (i := 1) rfl) .started rfl rfl
  cases hi
  cases hm
  cases hm'
  cases hsession
  exact ⟨_, List.mem_of_getElem? (i := 1) rfl, rfl, by decide +kernel, _, hshown⟩

/-- The message of a start is not what it would be without an outcome. -/
theorem restart_shows_failure :
    ¬ ∀ (l : Logger) (steps : List (Step Unit)) (w : World) (k i : Nat) (e : Event) (m : Meter)
        (session : Session), w.Untouched →
        (runScript l steps w).1.history[k]? = some (.call i .start) →
        e ∈ (worldAt l steps w k).logged l.enabled (.call i .start) →
        e.marker = .message .started →
        (worldAt l steps w (k + 1)).meters[i]? = some m →
        (worldAt l steps w (k + 1)).sessions[m.session]? = some session →
        e.message = session.config.messageAffixes.wrap
          (Message.render .started session.config (m.snapshot.withOutcome .unset)) := by
  intro h
  have hsilent := h Logger.recorder startedAfterFailure { sessions := [{ id := "s" }] } 3 0 _ _ _
    ⟨rfl, rfl, rfl, by simp⟩ rfl (List.mem_of_getElem? (i := 1) rfl) rfl rfl rfl
  revert hsilent
  decide +kernel

end Metering
