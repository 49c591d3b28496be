import Metering.Proofs.Payload.Line
import Metering.Proofs.Script

/-!
# Proofs: data events read back

Every data event carries the snapshot of its meter at that moment, and the readable message of the
same transition is rendered from this snapshot. The snapshot comes back exactly, because the outcome
of a meter always agrees with its stop time: both are set by a resolution, and the clock never shows
zero.
-/

namespace Metering

/-! ## Outcome and stop time -/

/-- Whether the stop time of a meter says the same as its outcome. -/
def Meter.IsCoherent (m : Meter) : Prop :=
  m.snapshot.outcome.isResolved = m.snapshot.isStopped

theorem Meter.Change.isCoherent {now : UInt64} {m m' : Meter} (hnow : now ≠ 0)
    (h : Change now m m') (hm : m.IsCoherent) : m'.IsCoherent := by
  cases h with
  | adjust a => exact hm
  | start metrics => exact hm
  | progress metrics => exact hm
  | resolve metrics outcome hresolved =>
    have hstopped : (now != 0) = true := by simpa using hnow
    exact hresolved.trans hstopped.symm
  | release => exact hm

theorem World.isCoherent_acts (enabled : Enabled) (w : World) (hw : w.Untouched)
    (as : List World.Action) : ∀ m ∈ (w.acts enabled as).meters, m.IsCoherent := by
  refine forall_meters_acts ?_ ?_ w as (hw.forall_meters _)
  · intros
    rfl
  · intro now m m' hnow h hm
    exact h.isCoherent hnow hm

/-- The outcome of a coherent meter is not mistaken for another one. -/
theorem Meter.IsCoherent.settled {m : Meter} (h : m.IsCoherent) :
    m.snapshot.outcome.settled m.snapshot.stopTime = m.snapshot.outcome := by
  rw [Snapshot.settled_eq_iff]
  simp only [IsCoherent, Snapshot.isStopped] at h
  constructor
  · rintro ⟨hunset, hstop⟩
    rw [hunset] at h
    exact hstop (by simpa [Outcome.isResolved] using h)
  · rintro ⟨hok, hstop⟩
    rw [hok, hstop] at h
    exact absurd h (by decide)

/-- A coherent meter with a proper load is read back as it is. -/
theorem Meter.IsCoherent.decode_encode {m : Meter} (h : m.IsCoherent)
    (hfinite : m.snapshot.metrics.load.isFinite = true)
    (hzero : m.snapshot.metrics.load.isZero = true → m.snapshot.metrics.load = .zero) :
    Snapshot.decode m.snapshot.encode = .ok m.snapshot := by
  refine Snapshot.decode_encode_of_norm _ ?_ ?_
  · simp only [Snapshot.norm, h.settled, if_pos hfinite]
  · unfold Binary64.plain
    split
    · next h => exact (hzero h).symm
    · rfl

/-- Whatever the load is, all but the metrics of a coherent meter is read back. -/
theorem Meter.IsCoherent.exists_decode {m : Meter} (h : m.IsCoherent) :
    ∃ metrics, Snapshot.decode m.snapshot.encode = .ok (m.snapshot.withMetrics metrics) := by
  have hnorm : m.snapshot.norm = m.snapshot.withMetrics m.snapshot.norm.metrics := by
    simp only [Snapshot.norm, h.settled]
    rfl
  rw [Snapshot.decode_encode, hnorm]
  exact ⟨_, rfl⟩

/-! ## The events of a transition -/

namespace Focus

variable {around : Surroundings} {f g : Focus} {e : Event}

theorem Logged.mem_loggedEvents {made : Option Transition} (h : Logged around f made g)
    (he : e ∈ g.events) (hf : e ∉ f.events) {t : Transition} (ht : e.marker = .data t) :
    e ∈ loggedEvents around made g.snapshot := by
  obtain ⟨es, hes, hevents, -⟩ := h
  rw [hevents, List.mem_append, List.mem_append] at he
  rcases he with (he | he) | he
  · exact absurd he hf
  · have := hes e he
    rw [ht] at this
    exact absurd this (by simp [Marker.isDiagnostic])
  · exact he

/-- A data event is the one of the transition that was made, which is wanted. -/
theorem eq_dataEvent_of_mem {made : Option Transition} {s : Snapshot}
    (he : e ∈ loggedEvents around made s) {t : Transition} (ht : e.marker = .data t) :
    made = some t ∧ wantsData around s = true ∧ e = dataEvent around t s := by
  cases made with
  | none => exact absurd he List.not_mem_nil
  | some t' =>
    rcases List.mem_append.mp he with hmem | hmem
    · split at hmem
      · rw [List.mem_singleton.mp hmem] at ht
        exact absurd ht (by simp [messageEvent])
      · exact absurd hmem List.not_mem_nil
    · split at hmem
      · next hdata =>
        obtain rfl := List.mem_singleton.mp hmem
        obtain rfl : t' = t := by simpa [dataEvent] using ht
        exact ⟨rfl, hdata, rfl⟩
      · exact absurd hmem List.not_mem_nil

/-- The metrics are sampled for a data event, and only reports come before its transition. -/
theorem Logged.data_eq {made : Option Transition} (h : Logged around f made g) (he : e ∈ g.events)
    (hf : e ∉ f.events) {t : Transition} (ht : e.marker = .data t) :
    made = some t ∧ e = dataEvent around t g.snapshot ∧ g.snapshot.metrics = around.metrics ∧
      ∃ es, AllReports es ∧ g.events = f.events ++ es ++ transitionEvents around t g.snapshot := by
  obtain ⟨rfl, hdata, hevent⟩ := eq_dataEvent_of_mem (h.mem_loggedEvents he hf ht) ht
  obtain ⟨es, hes, hevents, hmetrics⟩ := h
  exact ⟨rfl, hevent, hmetrics rfl hdata, es, hes, hevents⟩

/-- A message event among the events of a transition is the readable message of this transition. -/
theorem message_eq_of_mem (es : List Event) (hes : AllReports es) (t : Transition) (s : Snapshot)
    (he : e ∈ es ++ transitionEvents around t s) {t' : Transition} (ht : e.marker = .message t') :
    t' = t ∧ e = messageEvent around t s := by
  rcases List.mem_append.mp he with he | he
  · have := hes e he
    rw [ht] at this
    exact absurd this (by simp [Marker.isDiagnostic])
  · rcases List.mem_append.mp he with hmem | hmem
    · split at hmem
      · obtain rfl := List.mem_singleton.mp hmem
        exact ⟨by simpa [messageEvent, eq_comm] using ht, rfl⟩
      · exact absurd hmem List.not_mem_nil
    · split at hmem
      · rw [List.mem_singleton.mp hmem] at ht
        exact absurd ht (by simp [dataEvent])
      · exact absurd hmem List.not_mem_nil

end Focus

/-! ## Data events in runs -/

theorem wrap_wrap (a : Affixes) (p s text : String) :
    p ++ a.wrap text ++ s = (p ++ a.before) ++ text ++ (a.after ++ s) := by
  simp only [Affixes.wrap, String.append_assoc]

/-- A data event is read back from a line without further braces around it. -/
theorem parseLine_dataEvent (around : Surroundings) (t : Transition) {m : Meter}
    (hm : m.IsCoherent) (hfinite : m.snapshot.metrics.load.isFinite = true)
    (hzero : m.snapshot.metrics.load.isZero = true → m.snapshot.metrics.load = .zero)
    (p s : String) (hp : '\x7b' ∉ p.toList)
    (hbefore : '\x7b' ∉ around.config.dataAffixes.before.toList)
    (hafter : '\x7d' ∉ around.config.dataAffixes.after.toList) (hs : '\x7d' ∉ s.toList) :
    Snapshot.parseLine (p ++ (Focus.dataEvent around t m.snapshot).message ++ s) =
      .ok m.snapshot := by
  have hopening : '\x7b' ∉ (p ++ around.config.dataAffixes.before).toList := by
    simp [hp, hbefore]
  have hclosing : '\x7d' ∉ (around.config.dataAffixes.after ++ s).toList := by
    simp [hafter, hs]
  rw [Focus.dataEvent, wrap_wrap, Snapshot.parseLine_append _ _ _ hopening hclosing,
    hm.decode_encode hfinite hzero]

namespace World

/-- A data event that an action logs is that of a transition that its target makes. -/
theorem effect_of_mem_logged (enabled : Enabled) (w : World) (a : Action) (e : Event)
    (t : Transition) (he : e ∈ w.logged enabled a) (ht : e.marker = .data t) :
    ∃ i m session g, a.target? = some i ∧ w.meters[i]? = some m ∧
      w.sessions[m.session]? = some session ∧
      Focus.Effect (w.surroundings enabled session) ⟨m, w.stack, []⟩ (some t) g ∧
      w.act enabled a = w.affected i g ∧ w.logged enabled a = g.events := by
  rcases log_act_cases enabled w a with
    ⟨es, hes, hlog⟩ | ⟨i, m, session, made, g, hi, hm, hsession, heffect, hact⟩
  · rw [logged, hlog, List.drop_left] at he
    have := hes e he
    rw [ht] at this
    exact absurd this (by simp [Marker.isDiagnostic])
  · have hlogged : w.logged enabled a = g.events := by
      rw [logged, hact, affected, List.drop_left]
    rw [hlogged] at he
    obtain ⟨rfl, -⟩ := heffect.logged.data_eq he List.not_mem_nil ht
    exact ⟨i, m, session, g, hi, hm, hsession, heffect, hact, hlogged⟩

/-- What is done to a meter leaves it in its session. -/
theorem affected_target {enabled : Enabled} {w : World} {i : Nat} {m : Meter} {session : Session}
    {t : Option Transition} {g : Focus} (hm : w.meters[i]? = some m)
    (hsession : w.sessions[m.session]? = some session)
    (h : Focus.Effect (w.surroundings enabled session) ⟨m, w.stack, []⟩ t g) :
    (w.affected i g).meters[i]? = some g.meter ∧
      (w.affected i g).sessions[g.meter.session]? = some session := by
  have hsame : g.meter.session = m.session := h.meter_change.session_eq
  constructor
  · exact List.getElem?_set_self (List.getElem?_eq_some_iff.mp hm).1
  · rw [hsame]
    exact hsession

/-- After any actions, a data event that an action logs is that of its target. -/
theorem dataEvent_of_mem_logged (enabled : Enabled) (w : World) (a : Action) (e : Event)
    (t : Transition) (he : e ∈ w.logged enabled a) (ht : e.marker = .data t) :
    ∃ i m session, a.target? = some i ∧ (w.act enabled a).meters[i]? = some m ∧
      (w.act enabled a).sessions[m.session]? = some session ∧ m.snapshot.metrics = w.metrics ∧
      e = Focus.dataEvent (w.surroundings enabled session) t m.snapshot ∧
      ∃ es, Focus.AllReports es ∧ w.logged enabled a =
        es ++ Focus.transitionEvents (w.surroundings enabled session) t m.snapshot := by
  obtain ⟨i, m, session, g, hi, hm, hsession, heffect, hact, hlogged⟩ :=
    effect_of_mem_logged enabled w a e t he ht
  rw [hlogged] at he
  obtain ⟨-, hevent, hmetrics, es, hes, hevents⟩ := heffect.logged.data_eq he List.not_mem_nil ht
  obtain ⟨htarget, hhome⟩ := affected_target hm hsession heffect
  rw [← hact] at htarget hhome
  refine ⟨i, g.meter, session, hi, htarget, hhome, hmetrics, hevent, es, hes, ?_⟩
  rw [hlogged, hevents, List.nil_append]
  rfl

end World

/-- Every data event that is logged in the run of a script is read back, from whatever line without
further braces around it, as the snapshot that its meter has at that moment. The metrics in it are
those in force. If the same transition logs a readable message, it is the one of this snapshot. -/
theorem data_event_reads_back {α : Type} (l : Logger) (steps : List (Step α)) (w : World)
    (hw : w.Untouched) (k : Nat) (a : World.Action)
    (ha : (runScript l steps w).1.history[k]? = some a) (e : Event) (t : Transition)
    (he : e ∈ (worldAt l steps w k).logged l.enabled a) (ht : e.marker = .data t)
    (hfinite : (worldAt l steps w k).metrics.load.isFinite = true)
    (hzero : (worldAt l steps w k).metrics.load.isZero = true →
      (worldAt l steps w k).metrics.load = .zero) :
    (∃ es, (runScript l steps w).1.world.log =
        (worldAt l steps w k).log ++ (worldAt l steps w k).logged l.enabled a ++ es) ∧
      ∃ i m session, a.target? = some i ∧ (worldAt l steps w (k + 1)).meters[i]? = some m ∧
        (worldAt l steps w (k + 1)).sessions[m.session]? = some session ∧
        m.snapshot.metrics = (worldAt l steps w k).metrics ∧
        (∀ p s : String, '\x7b' ∉ p.toList → '\x7b' ∉ session.config.dataAffixes.before.toList →
          '\x7d' ∉ session.config.dataAffixes.after.toList → '\x7d' ∉ s.toList →
          Snapshot.parseLine (p ++ e.message ++ s) = .ok m.snapshot) ∧
        ∀ e' ∈ (worldAt l steps w k).logged l.enabled a, ∀ t', e'.marker = .message t' →
          t' = t ∧ e'.message = session.config.messageAffixes.before ++
            Message.render t session.config m.snapshot ++ session.config.messageAffixes.after := by
  have hsucc := worldAt_succ l steps w ha
  obtain ⟨i, m, session, hi, hm, hsession, hmetrics, hevent, es, hes, hlogged⟩ :=
    (worldAt l steps w k).dataEvent_of_mem_logged l.enabled a e t he ht
  rw [← hsucc] at hm hsession
  have hcoherent : m.IsCoherent :=
    w.isCoherent_acts l.enabled hw (historyAt l steps w (k + 1)) m (List.mem_of_getElem? hm)
  refine ⟨?_, i, m, session, hi, hm, hsession, hmetrics, ?_, ?_⟩
  · obtain ⟨rest, hrest⟩ := World.log_acts l.enabled (worldAt l steps w (k + 1))
      ((runScript l steps w).1.history.drop (k + 1))
    refine ⟨rest, ?_⟩
    rw [← acts_drop_worldAt l steps w (k + 1), hrest, hsucc, World.log_act]
  · rw [← hmetrics] at hfinite hzero
    intro p s hp hbefore hafter hs
    rw [hevent]
    exact parseLine_dataEvent _ t hcoherent hfinite hzero p s hp hbefore hafter hs
  · intro e' he' t' ht'
    rw [hlogged] at he'
    obtain ⟨htransition, hmessage⟩ := Focus.message_eq_of_mem es hes t m.snapshot he' ht'
    exact ⟨htransition, congrArg Event.message hmessage⟩

/-- The start of a meter logs a data event that is read back from the middle of a line, and a
message between the affixes of its session. -/
theorem data_event_reads_back_start :
    let session : Session :=
      { id := "s", config := { messageAffixes := ⟨"> ", " <"⟩, dataAffixes := ⟨"[", "]"⟩ } }
    let logged := (worldAt Logger.recorder
      ([.create "m" "c" none, .call "m" .start] : List (Step Unit))
      { sessions := [session] } 1).logged Logger.recorder.enabled (.call 0 .start)
    (∃ e ∈ logged, e.marker = .data .started ∧
      Snapshot.parseLine ("line: " ++ e.message ++ " end") =
        .ok { session := some "s", category := "c", position := 1, createTime := 1,
              startTime := 1, lastTime := 1 }) ∧
      ∃ e' ∈ logged, e'.marker = .message .started ∧ e'.message = "> STARTED: c <" := by
  intro session logged
  have hw : World.Untouched { sessions := [session] } := ⟨rfl, rfl, rfl, by simp [session]⟩
  obtain ⟨-, i, m, home, hi, hm, hhome, -, hparse, hmessages⟩ :=
    data_event_reads_back Logger.recorder
      ([.create "m" "c" none, .call "m" .start] : List (Step Unit))
      { sessions := [session] } hw 1 (.call 0 .start) rfl _ .started
      (List.mem_of_getElem? (i := 1) rfl) rfl rfl (fun _ => rfl)
  cases hi
  cases hm
  cases hhome
  have hmessage := List.mem_of_getElem? (l := logged) (i := 0) rfl
  obtain ⟨-, hrendered⟩ := hmessages _ hmessage .started rfl
  refine ⟨⟨_, List.mem_of_getElem? (i := 1) rfl, rfl,
    hparse "line: " " end" (by decide) (by decide) (by decide) (by decide)⟩,
    _, hmessage, rfl, hrendered.trans ?_⟩
  decide

end Metering
