import Metering.Proofs.DataEvents
import Metering.Proofs.OwnHistory

/-!
# Proofs: misuse is reported exactly where it happens

A deed is misuse because of its argument or because of what was done to the meter before: it was
not started yet, it was started already, or it was resolved already. A meter does not remember what
was done to it but sees it in its times, where zero stands for "not yet". So whatever the order of
the deeds, the meter reports exactly those that are misuse in the light of its whole history, each
once and before anything else. A call that is refused does nothing but report, and an executor has
nothing to report by itself.
-/

namespace Metering

namespace Deeds

/-- The report on a resolution: the operation was resolved before, or it was not started. -/
def unfit (ds : Deeds) (attempt : Attempt) : Option Marker :=
  if ds.isResolved ∨ ds.isStarted = false then some (.inconsistent attempt) else none

/-- The report on counting before the start. -/
def uncounted (ds : Deeds) : Option Marker :=
  if ds.isStarted then none else some (.inconsistent .increment)

/-- The marker of the report on one more call, if it is misuse. -/
def diagnosisOfCall (ds : Deeds) : Call → Option Marker
  | .start => if ds.isStarted then some (.inconsistent .start) else none
  | .ok | .okPath _ => ds.unfit .ok
  | .reject _ => ds.unfit .reject
  | .fail _ | .failPath .. => ds.unfit .fail
  | .increment => ds.uncounted
  | .incrementBy n => if n = 0 then some .illegal else ds.uncounted
  | .incrementTo n => if n.toNat ≤ ds.iteration then some .illegal else ds.uncounted
  | .progress => if ds.isStarted then none else some (.inconsistent .progress)
  | .limit d => if d.nanos = 0 then some .illegal else none
  | .limitMillis n | .expect n => if n = 0 then some .illegal else none
  | .description _ | .attach .. | .flag _ | .attachOptional .. | .flagIf .. | .flagEither ..
  | .detach _ | .setPath _ => none

/-- The marker of the report on one more deed, if it is misuse. -/
def diagnosis (ds : Deeds) : Deed → Option Marker
  | .call c => ds.diagnosisOfCall c
  | .part name => if name = "" then some .illegal else none
  | .drop _ =>
    if ds.isResolved = false ∧ ds.isStarted = false then some (.inconsistent .fail) else none

end Deeds

namespace Meter.Follows

open Deeds

variable {m₀ m : Meter} {period : Duration} {ds : Deeds}

theorem marker_misuseOfResolve (h : m.Follows m₀ period ds) (hds : ds.Timed)
    (attempt : Attempt) :
    (m.snapshot.misuseOfResolve (.inconsistent attempt)).map Misuse.marker = ds.unfit attempt := by
  rw [Snapshot.misuseOfResolve, h.isStarted hds, h.isStopped hds, unfit]
  cases ds.isResolved <;> cases ds.isStarted <;> rfl

theorem marker_misuseOfIncrement (h : m.Follows m₀ period ds) (hds : ds.Timed) :
    m.snapshot.misuseOfIncrement.map Misuse.marker = ds.uncounted := by
  rw [Snapshot.misuseOfIncrement, h.isStarted hds, uncounted]
  cases ds.isStarted <;> rfl

theorem marker_misuseOfPositive (s : Snapshot) (what : String) (n : UInt64) :
    (s.misuseOfPositive what n).map Misuse.marker = if n = 0 then some .illegal else none := by
  unfold Snapshot.misuseOfPositive
  split <;> rfl

theorem marker_misuse (h : m.Follows m₀ period ds) (hds : ds.Timed) (d : Deed) :
    (d.misuse m.snapshot).map Misuse.marker = ds.diagnosis d := by
  cases d with
  | call c =>
    cases c with
    | start =>
      rw [Deed.misuse, Call.misuse, Snapshot.misuseOfStart, h.isStarted hds, diagnosis,
        diagnosisOfCall]
      cases ds.isStarted <;> rfl
    | ok | okPath path | reject path | fail failure | failPath path message =>
      exact h.marker_misuseOfResolve hds _
    | increment => exact h.marker_misuseOfIncrement hds
    | incrementBy n =>
      rw [Deed.misuse, Call.misuse, Snapshot.misuseOfIncrementBy, diagnosis, diagnosisOfCall]
      split
      · rfl
      · rw [Option.none_or, h.marker_misuseOfIncrement hds]
    | incrementTo n =>
      have hiff : n ≤ m.snapshot.iteration ↔ n.toNat ≤ ds.iteration := by
        rw [UInt64.le_iff_toNat_le, h.iteration]
      rw [Deed.misuse, Call.misuse, Snapshot.misuseOfIncrementTo, diagnosis, diagnosisOfCall]
      by_cases hle : n ≤ m.snapshot.iteration
      · rw [if_pos hle, if_pos (hiff.mp hle)]
        rfl
      · rw [if_neg hle, if_neg (mt hiff.mpr hle), Option.none_or, h.marker_misuseOfIncrement hds]
    | progress =>
      rw [Deed.misuse, Call.misuse, Snapshot.misuseOfProgress, h.isStarted hds, diagnosis,
        diagnosisOfCall]
      cases ds.isStarted <;> rfl
    | limit d =>
      rw [Deed.misuse, Call.misuse, marker_misuseOfPositive, diagnosis, diagnosisOfCall]
      simp only [toWord_eq_zero_iff]
    | limitMillis n =>
      rw [Deed.misuse, Call.misuse, marker_misuseOfPositive, diagnosis, diagnosisOfCall]
      simp only [toWord_ofMillis_eq_zero_iff]
    | expect n => exact marker_misuseOfPositive m.snapshot _ n
    | _ => rfl
  | part name =>
    rw [Deed.misuse, Snapshot.misuseOfPart, diagnosis]
    split <;> rfl
  | drop unwinding =>
    have hunfit := h.marker_misuseOfResolve hds .fail
    rw [Deed.misuse, h.isResolved hds, diagnosis]
    cases hresolved : ds.isResolved with
    | true => simp
    | false => simpa [unfit, hresolved] using hunfit

end Meter.Follows

/-! ## What is logged -/

namespace Focus

variable {around : Surroundings} {f : Focus}

theorem reports_error {misuse : Option Misuse} {s : Snapshot} {e : Event}
    (he : e ∈ reports misuse s) :
    e.level = .error ∧ e.hasCaller = true ∧ ∃ problem, e.message = problem ++ ": " ++ s.fullId := by
  obtain ⟨m, -, rfl⟩ : ∃ m, misuse = some m ∧ m.event s = e := by simpa [reports] using he
  exact ⟨rfl, rfl, m.problem, rfl⟩

theorem isDiagnostic_of_mem_loggedEvents {t : Option Transition} {s : Snapshot} {e : Event}
    (he : e ∈ loggedEvents around t s) : e.marker.isDiagnostic = false := by
  cases t with
  | none => exact absurd he List.not_mem_nil
  | some t =>
    rcases List.mem_append.mp he with he | he
    all_goals
      split at he
      · rw [List.mem_singleton.mp he]
        rfl
      · exact absurd he List.not_mem_nil

theorem guarded_of_misuse {misuse rest : Option Misuse} {m : Misuse} (change : Focus → Focus)
    (h : misuse.or rest = some m) (hrest : rest ≠ some m) :
    f.guarded misuse change = f.report (some m) := by
  cases misuse with
  | none => exact absurd h hrest
  | some m' =>
    obtain rfl := Option.some.inj h
    rfl

/-- A call that is refused does nothing but report. -/
theorem perform_of_refused {c : Call} {m : Misuse}
    (hmisuse : Deed.misuse f.snapshot (.call c) = some m)
    (hmarker : m.marker = .illegal ∨ m.marker = .inconsistent .progress) :
    f.perform around c = f.report (some m) := by
  -- The reports on counting and resolving do not refuse, so they have other markers.
  have hincrement : f.snapshot.misuseOfIncrement ≠ some m := by
    intro h
    obtain ⟨-, rfl⟩ : f.snapshot.isStarted = false ∧ .incrementedUnstarted = m := by
      simpa [Snapshot.misuseOfIncrement] using h
    rcases hmarker with h | h <;> cases h
  have hresolve {attempt : Attempt} (hattempt : attempt ≠ .progress) :
      f.snapshot.misuseOfResolve (.inconsistent attempt) ≠ some m := by
    intro h
    obtain rfl | rfl : .resolvedAgain (.inconsistent attempt) = m ∨
        .resolvedUnstarted (.inconsistent attempt) = m := by
      unfold Snapshot.misuseOfResolve at h
      split at h
      · exact Or.inl (Option.some.inj h)
      · split at h
        · cases h
        · exact Or.inr (Option.some.inj h)
    all_goals
      rcases hmarker with h | h
      · cases h
      · exact hattempt (Marker.inconsistent.inj h)
  cases c with
  | limit d | limitMillis n | expect n =>
    simp only [perform, limit]
    exact guarded_of_misuse _ (Option.or_none.trans hmisuse) (Option.some_ne_none m).symm
  | start =>
    obtain ⟨-, rfl⟩ : f.snapshot.isStarted = true ∧ .startedAgain = m := by
      simpa [Deed.misuse, Call.misuse, Snapshot.misuseOfStart] using hmisuse
    rcases hmarker with h | h <;> cases h
  | increment => exact absurd hmisuse hincrement
  | incrementBy n | incrementTo n =>
    simp only [perform, Focus.incrementBy, Focus.incrementTo]
    exact guarded_of_misuse _ hmisuse hincrement
  | progress =>
    simp only [perform, Focus.progress]
    exact guarded_of_misuse _ (Option.or_none.trans hmisuse) (Option.some_ne_none m).symm
  | ok | okPath path | reject path | fail failure | failPath path message =>
    exact absurd hmisuse (hresolve (by decide))
  | _ => cases hmisuse

end Focus

namespace World

variable {enabled : Enabled} {w : World} {i : Nat} {m : Meter} {session : Session}
  (hm : w.meters[i]? = some m) (hsession : w.sessions[m.session]? = some session)

include hm hsession

/-- A deed logs the report on it and then nothing that is a report. -/
theorem logged_on (enabled : Enabled) (d : Deed) :
    ∃ rest, w.logged enabled (d.on i) =
        Focus.reports (d.misuse m.snapshot) m.snapshot ++ rest ∧
      ∀ e ∈ rest, e.marker.isDiagnostic = false := by
  obtain ⟨g, ⟨-, hevents⟩, -, hlog⟩ := act_on hm hsession enabled d
  refine ⟨Focus.loggedEvents (w.surroundings enabled session)
    (d.transition? (w.surroundings enabled session) m) g.snapshot, ?_,
    fun e => Focus.isDiagnostic_of_mem_loggedEvents⟩
  rw [logged, hlog, List.drop_left, hevents]
  rfl

/-- What leaves the meter and the active meters as they are leaves the world as it is. -/
theorem call_eq_of_perform {c : Call} {es : List Event}
    (h : Focus.perform (w.surroundings enabled session) ⟨m, w.stack, []⟩ c = ⟨m, w.stack, es⟩) :
    w.act enabled (.call i c) = { w with log := w.log ++ es } := by
  rw [act, call, withMeter_of_getElem? _ _ _ _ hm hsession, h, affected, set_eq_self hm]

end World

/-! ## Executors -/

open World

namespace Run

variable {α : Type} {l : Logger} {w : World}

theorem isResolved_resolution {α : Type} (e : Executor α) (okPath : Option String) :
    (e.resolution.outcome? okPath).isSome = true := by
  cases e with
  | run => rfl
  | call result | safeCall result => cases result <;> rfl
  | callOrReject result rejects => cases result <;> cases rejects <;> rfl

theorem misuse_of_outcome? {c : Call} {okPath : Option String} (s : Snapshot)
    (h : (c.outcome? okPath).isSome = true) :
    ∃ attempt, Deed.misuse s (.call c) = s.misuseOfResolve (.inconsistent attempt) := by
  cases c with
  | ok | okPath path | reject path | fail failure | failPath path message => exact ⟨_, rfl⟩
  | _ => cases h

theorem isStarted_iff (r : Run α) (i : Nat) :
    r.isStarted i = true ↔ ∃ m, r.world.meters[i]? = some m ∧ m.snapshot.isStarted = true :=
  any_snapshot?_iff r.world i _

theorem isStarted_of_change {now : UInt64} {m m' : Meter} (hnow : now ≠ 0)
    (h : Meter.Change now m m') (hm : m.snapshot.isStarted = true) :
    m'.snapshot.isStarted = true := by
  cases h with
  | start metrics => exact bne_iff_ne.mpr hnow
  | _ => exact hm

theorem Extends.isStarted {r r' : Run α} (h : Extends l r r') {i : Nat}
    (hstarted : r.isStarted i = true) : r'.isStarted i = true := by
  obtain ⟨as, -, hworld⟩ := h
  rw [isStarted_iff] at hstarted ⊢
  rw [hworld]
  exact exists_meter_acts (fun _ _ _ => isStarted_of_change) l.enabled r.world as i hstarted

theorem Extends.isResolved {r r' : Run α} (h : Extends l r r') {i : Nat}
    (hresolved : r.isResolved i = true) : r'.isResolved i = true := by
  obtain ⟨as, -, hworld⟩ := h
  rw [isResolved_iff] at hresolved ⊢
  rw [hworld]
  exact isResolved_acts l.enabled r.world as i hresolved

section

variable {r : Run α} {as : List World.Action} {i : Nat} {m : Meter}

theorem misuse_start (hm : r.world.meters[i]? = some m) (hunstarted : ¬ r.isStarted i = true) :
    Deed.misuse m.snapshot (.call .start) = none := by
  have hnever : m.snapshot.isStarted = false := by
    rw [isStarted_iff] at hunstarted
    exact Bool.eq_false_iff.mpr fun h => hunstarted ⟨m, hm, h⟩
  rw [Deed.misuse, Call.misuse, Snapshot.misuseOfStart, hnever]
  rfl

variable (hw : w.Untouched) (hr : r.world = w.acts l.enabled as) (hm : r.world.meters[i]? = some m)

include hw hr hm

/-- A meter without an outcome has not noted the time of its end either, so its first resolution
after the start is no misuse. -/
theorem misuse_resolution (hunresolved : ¬ r.isResolved i = true)
    (hstarted : m.snapshot.isStarted = true) {c : Call} {okPath : Option String}
    (hc : (c.outcome? okPath).isSome = true) : Deed.misuse m.snapshot (.call c) = none := by
  obtain ⟨attempt, hmisuse⟩ := misuse_of_outcome? m.snapshot hc
  have hstopped : m.snapshot.isStopped = false := by
    rw [isResolved_iff] at hunresolved
    have hcoherent : m.IsCoherent :=
      w.isCoherent_acts l.enabled hw as m (List.mem_of_getElem? (hr ▸ hm))
    rw [← hcoherent]
    exact Bool.eq_false_iff.mpr fun h => hunresolved ⟨m, hm, h⟩
  rw [hmisuse, Snapshot.misuseOfResolve, hstopped, hstarted]
  rfl

theorem log_act_of_fit {c : Call} (hfit : Deed.misuse m.snapshot (.call c) = none) :
    ∃ es, (r.act l (.call i c)).world.log = r.world.log ++ es ∧
      ∀ e ∈ es, e.marker.isDiagnostic = false := by
  obtain ⟨session, hsession⟩ := exists_session hw (hr ▸ hm)
  rw [← hr] at hsession
  obtain ⟨rest, hlogged, hrest⟩ := logged_on hm hsession l.enabled (.call c)
  rw [hfit] at hlogged
  refine ⟨rest, ?_, hrest⟩
  exact (log_act _ _ _).trans (congrArg _ hlogged)

/-- An executor starts an operation only where that is no misuse. -/
theorem log_ensureStarted :
    ∃ es, (r.ensureStarted l i).world.log = r.world.log ++ es ∧
      ∀ e ∈ es, e.marker.isDiagnostic = false := by
  unfold ensureStarted
  split
  · exact ⟨[], (List.append_nil _).symm, nofun⟩
  · next hstarted => exact log_act_of_fit hw hr hm (misuse_start hm hstarted)

/-- An executor has started the operation that it resolves, so its resolution is no misuse. -/
theorem log_ensureResolved (hstarted : m.snapshot.isStarted = true) {c : Call}
    (okPath : Option String) (hc : (c.outcome? okPath).isSome = true) :
    ∃ es, (r.ensureResolved l i c).world.log = r.world.log ++ es ∧
      ∀ e ∈ es, e.marker.isDiagnostic = false := by
  unfold ensureResolved
  split
  · exact ⟨[], (List.append_nil _).symm, nofun⟩
  · next hresolved =>
    exact log_act_of_fit hw hr hm (misuse_resolution hw hr hm hresolved hstarted hc)

theorem isStarted_ensureStarted : (r.ensureStarted l i).isStarted i = true := by
  unfold ensureStarted
  split
  · next hstarted => exact hstarted
  · obtain ⟨session, hsession⟩ := exists_session hw (hr ▸ hm)
    rw [← hr] at hsession
    obtain ⟨g, ⟨⟨metrics, hmeter⟩, -⟩, hg, -⟩ := act_on hm hsession l.enabled (.call .start)
    rw [isStarted_iff]
    refine ⟨g.meter, hg, ?_⟩
    rw [hmeter]
    exact bne_iff_ne.mpr r.world.now_ne_zero

/-- An executor logs no report by itself, neither when it enters its closure nor when it leaves. -/
theorem log_execute {name : String} (hi : r.find? name = some i) (e : Executor α)
    (body : List (Step α)) :
    ∃ before after, (r.ensureStarted l i).world.log = r.world.log ++ before ∧
      ((Step.execute name e body).run l r).1.world.log =
        (runSteps l body ((r.ensureStarted l i).record (.entered name) none)).1.world.log ++ after ∧
      ∀ event ∈ before ++ after, event.marker.isDiagnostic = false := by
  obtain ⟨before, hbefore, hfitBefore⟩ := log_ensureStarted hw hr hm
  have hentered := isStarted_ensureStarted hw hr hm
  -- The closure may do anything, but the start that was recorded before it stays recorded.
  generalize hr' : runSteps l body ((r.ensureStarted l i).record (.entered name) none) = p
  have hextends : Extends l (r.ensureStarted l i) p.1 := by
    rw [← hr']
    exact (extends_of_eq _ ((r.ensureStarted l i).record (.entered name) none) rfl rfl).trans
      (extends_runSteps l _ body)
  obtain ⟨m', hm', hstarted⟩ := (isStarted_iff _ i).mp (hextends.isStarted hentered)
  obtain ⟨bs, -, hbs⟩ := (extends_ensureStarted r i).trans hextends
  rw [hr, ← acts_append] at hbs
  have hafter : ∃ after, (leaveExecutor l i (.execute name e body) e p).1.world.log =
      p.1.world.log ++ after ∧ ∀ event ∈ after, event.marker.isDiagnostic = false := by
    obtain ⟨r', ending⟩ := p
    cases ending with
    | returned => exact log_ensureResolved hw hbs hm' hstarted none (isResolved_resolution e none)
    | panicked payload =>
      exact log_ensureResolved hw hbs hm' hstarted none rfl
  obtain ⟨after, hafter, hfitAfter⟩ := hafter
  refine ⟨before, after, hbefore, ?_, ?_⟩
  · simp only [Step.run, hi, hr']
    exact hafter
  · intro event hevent
    rcases List.mem_append.mp hevent with h | h
    · exact hfitBefore event h
    · exact hfitAfter event h

end

end Run

/-- Whether one more call is refused. -/
def Deeds.refuses (ds : Deeds) (c : Call) : Prop :=
  ds.diagnosis (.call c) = some .illegal ∨ ds.diagnosis (.call c) = some (.inconsistent .progress)

/-- At every moment of a script, whatever is done to a meter logs first the report that the history
of the meter asks for, if it asks for one, and then nothing that is a report. A report is an error,
tells its caller and names the meter. A call that is refused changes nothing and logs nothing but
its report, and a call for progress that is ignored changes nothing at all. An executor logs no
report by itself. -/
theorem diagnostics_exactly_for_misuse {α : Type} (l : Logger) (steps : List (Step α)) (w : World)
    (hw : w.Untouched) (k i : Nat) (m : Meter) (hm : (worldAt l steps w k).meters[i]? = some m) :
    (∀ d : Deed, ∃ reports rest,
        (worldAt l steps w k).logged l.enabled (d.on i) = reports ++ rest ∧
        reports.map Event.marker = ((deedsAt l steps w i k).diagnosis d).toList ∧
        (∀ e ∈ reports, e.level = .error ∧ e.hasCaller = true ∧
          ∃ problem, e.message = problem ++ ": " ++ m.snapshot.fullId) ∧
        ∀ e ∈ rest, e.marker.isDiagnostic = false) ∧
      (∀ c, (deedsAt l steps w i k).refuses c → ∃ report,
        (worldAt l steps w k).act l.enabled (.call i c) =
          { worldAt l steps w k with log := (worldAt l steps w k).log ++ [report] }) ∧
      (∀ session, (worldAt l steps w k).sessions[m.session]? = some session →
        (deedsAt l steps w i k).isStarted = true →
        (deedsAt l steps w i k).heeds session.config.progressPeriod (worldAt l steps w k).now =
          false →
        (worldAt l steps w k).act l.enabled (.call i .progress) = worldAt l steps w k) ∧
      ∀ (r : Run α) (name : String) (e : Executor α) (body : List (Step α)),
        r.world = worldAt l steps w k → r.find? name = some i →
        ∃ before after, (r.ensureStarted l i).world.log = r.world.log ++ before ∧
          ((Step.execute name e body).run l r).1.world.log =
            (runSteps l body ((r.ensureStarted l i).record (.entered name) none)).1.world.log ++
              after ∧
          ∀ event ∈ before ++ after, event.marker.isDiagnostic = false := by
  have htimed : (deedsAt l steps w i k).Timed := timed_diaryOf _ _ _
  obtain ⟨m₀, session, hsession, hfollows⟩ :=
    (orderly_historyAt l steps hw k).exists_follows hw hm
  have hmarker := hfollows.marker_misuse htimed
  refine ⟨?_, ?_, ?_, ?_⟩
  · intro d
    obtain ⟨rest, hlogged, hrest⟩ := logged_on hm hsession l.enabled d
    refine ⟨_, rest, hlogged, ?_, fun e => Focus.reports_error, hrest⟩
    rw [deedsAt, ← hmarker d]
    cases d.misuse m.snapshot <;> rfl
  · intro c hrefuses
    have hsame := hmarker (.call c)
    cases hmisuse : Deed.misuse m.snapshot (.call c) with
    | none =>
      rw [hmisuse] at hsame
      rcases hrefuses with h | h <;> cases hsame.trans h
    | some misuse =>
      rw [hmisuse] at hsame
      have hkind : misuse.marker = .illegal ∨ misuse.marker = .inconsistent .progress := by
        rcases hrefuses with h | h
        · exact Or.inl (Option.some.inj (hsame.trans h))
        · exact Or.inr (Option.some.inj (hsame.trans h))
      refine ⟨misuse.event m.snapshot, call_eq_of_perform hm hsession ?_⟩
      exact Focus.perform_of_refused (f := ⟨m, _, []⟩) hmisuse hkind
  · intro session' hsession' hstarted hheeds
    obtain rfl := Option.some.inj (hsession'.symm.trans hsession)
    rw [deedsAt, ← hfollows.isStarted htimed] at hstarted
    have hreports : m.reportsProgress
        ((worldAt l steps w k).surroundings l.enabled session') = false :=
      (hfollows.reportsProgress htimed rfl).trans hheeds
    have hperform : Focus.perform ((worldAt l steps w k).surroundings l.enabled session')
        ⟨m, (worldAt l steps w k).stack, []⟩ .progress = ⟨m, (worldAt l steps w k).stack, []⟩ := by
      rw [Focus.perform, Focus.progress_of_started hstarted, hreports]
      rfl
    rw [call_eq_of_perform hm hsession hperform, List.append_nil]
  · intro r name e body hr hi
    rw [← hr] at hm
    exact Run.log_execute hw hr hm hi e body

/-- A success that was recorded before the start is no reason to accept another one after it. -/
theorem diagnostics_exactly_for_misuse_resolved :
    ∃ reports rest, (worldAt Logger.recorder ([.create "m" "c" none, .call "m" .ok,
          .call "m" .start] : List (Step Unit)) { sessions := [{ id := "s" }] } 3).logged
            Logger.recorder.enabled (.call 0 .ok) = reports ++ rest ∧
      reports.map Event.marker = [.inconsistent .ok] := by
  obtain ⟨hreports, -⟩ := diagnostics_exactly_for_misuse Logger.recorder
    ([.create "m" "c" none, .call "m" .ok, .call "m" .start] : List (Step Unit))
    { sessions := [{ id := "s" }] } ⟨rfl, rfl, rfl, by simp⟩ 3 0 _ rfl
  obtain ⟨reports, rest, hlogged, hmarkers, -⟩ := hreports (.call .ok)
  exact ⟨reports, rest, hlogged, hmarkers.trans (by decide +kernel)⟩

end Metering
