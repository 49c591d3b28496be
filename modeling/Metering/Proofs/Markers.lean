import Metering.Proofs.DataEvents

/-!
# Proofs: markers agree with what is read back

The marker of a data event is chosen from the live meter. A reader sees the payload alone and works
out from its times and its outcome whether the operation runs, how it ended and whether it was slow.
Both say the same, whatever the clock shows: a data event is logged from the snapshot that the
transition leaves behind, and all that is asked of it is read back. The marker of an end is even
the only one that the payload allows.
-/

namespace Metering

namespace Snapshot

/-- Whether a snapshot bears out the marker of a transition. -/
def BearsOut (s : Snapshot) : Transition → Prop
  | .started => s.isStarted = true
  | .progress => s.isStarted = true ∧ s.isStopped = false ∧ s.outcome = .unset
  | .ok => s.outcome.isOk = true ∧ s.isStopped = true ∧ s.isSlow = false
  | .slow =>
    s.outcome.isOk = true ∧ s.isStopped = true ∧ s.isSlow = true ∧ s.timeLimit ≠ 0 ∧
      s.timeLimit < s.executionTime
  | .reject => s.outcome.isReject = true ∧ s.isStopped = true
  | .fail => s.outcome.isFail = true ∧ s.isStopped = true

variable {s : Snapshot} {t t' : Transition}

theorem bearsOut_withMetrics (metrics : Metrics) :
    (s.withMetrics metrics).BearsOut t ↔ s.BearsOut t := by
  cases t <;> exact Iff.rfl

theorem isSlow_iff : s.isSlow = true ↔ s.timeLimit ≠ 0 ∧ s.timeLimit < s.executionTime := by
  rw [isSlow, Bool.and_eq_true, bne_iff_ne, decide_eq_true_eq]

/-- The transition of a resolution is borne out by the snapshot that it leaves behind. -/
theorem bearsOut_terminal (hresolved : s.outcome.isResolved = true) (hstopped : s.isStopped = true) :
    s.BearsOut (Focus.terminal s) := by
  unfold Focus.terminal
  split
  · next path houtcome =>
    have hok : s.outcome.isOk = true := isOk_iff.mpr ⟨path, houtcome⟩
    split
    · next hslow => exact ⟨hok, hstopped, hslow, isSlow_iff.mp hslow⟩
    · next hslow => exact ⟨hok, hstopped, Bool.eq_false_iff.mpr hslow⟩
  · next path houtcome => exact ⟨isReject_iff.mpr ⟨path, houtcome⟩, hstopped⟩
  · next path message houtcome => exact ⟨isFail_iff.mpr ⟨path, message, houtcome⟩, hstopped⟩
  · next houtcome =>
    rw [houtcome] at hresolved
    cases hresolved

/-- A terminal transition that a snapshot bears out is the one that a resolution would make. -/
theorem BearsOut.eq_terminal (h : s.BearsOut t) (ht : t.isTerminal = true) :
    s.outcome.isResolved = true ∧ t = Focus.terminal s := by
  cases t with
  | started | progress => cases ht
  | ok | slow =>
    obtain ⟨hok, -, hslow⟩ := h
    obtain ⟨path, houtcome⟩ := isOk_iff.mp hok
    simp [Focus.terminal, houtcome, hslow, Outcome.isResolved]
  | reject =>
    obtain ⟨path, houtcome⟩ := isReject_iff.mp h.1
    simp [Focus.terminal, houtcome, Outcome.isResolved]
  | fail =>
    obtain ⟨path, message, houtcome⟩ := isFail_iff.mp h.1
    simp [Focus.terminal, houtcome, Outcome.isResolved]

theorem BearsOut.terminal_unique (h : s.BearsOut t) (ht : t.isTerminal = true)
    (h' : s.BearsOut t') (ht' : t'.isTerminal = true) : t' = t :=
  (h'.eq_terminal ht').2.trans (h.eq_terminal ht).2.symm

end Snapshot

/-! ## Transitions -/

/-- A transition is borne out by the snapshot that it leaves behind. -/
theorem Focus.Effect.bearsOut {around : Surroundings} {f g : Focus} {t : Transition}
    (h : Effect around f (some t) g) (hnow : around.now ≠ 0) (hf : f.meter.IsCoherent) :
    g.snapshot.BearsOut t := by
  cases h with
  | start =>
    obtain ⟨metrics, hmeter⟩ := meter_start around f
    rw [snapshot, hmeter]
    exact bne_iff_ne.mpr hnow
  | progress hstarted hstopped =>
    obtain ⟨metrics, hmeter⟩ := meter_emit around (f.noteProgress around) .progress
    have hunset : f.snapshot.outcome = .unset :=
      isResolved_eq_false_iff.mp (hf.trans hstopped)
    rw [snapshot, hmeter]
    exact ⟨hstarted, hstopped, hunset⟩
  | resolve outcome attempt hresolved =>
    obtain ⟨metrics, hmeter⟩ := meter_resolve around f outcome attempt
    have hstopped : (f.noteOutcome around outcome).snapshot.isStopped = true := bne_iff_ne.mpr hnow
    rw [snapshot, hmeter]
    exact (Snapshot.bearsOut_withMetrics metrics).mpr
      (Snapshot.bearsOut_terminal hresolved hstopped)

/-- Whatever is configured and whatever the logger wants, the payload of every data event in the run
of a script is read back as a snapshot that bears out the marker of the event. If the marker says
that the operation has ended, the snapshot is resolved and bears out no other such marker. -/
theorem markers_agree_with_payloads {α : Type} (l : Logger) (steps : List (Step α)) (w : World)
    (hw : w.Untouched) (k : Nat) (a : World.Action)
    (ha : (runScript l steps w).1.history[k]? = some a) (e : Event) (t : Transition)
    (he : e ∈ (worldAt l steps w k).logged l.enabled a) (ht : e.marker = .data t) :
    ∃ i m session, a.target? = some i ∧ (worldAt l steps w (k + 1)).meters[i]? = some m ∧
      (worldAt l steps w (k + 1)).sessions[m.session]? = some session ∧
      ∃ payload s, e.message = session.config.dataAffixes.wrap payload ∧
        Snapshot.decode payload = .ok s ∧ s.BearsOut t ∧
        (t.isTerminal = true → s.outcome.isResolved = true ∧
          ∀ t', t'.isTerminal = true → s.BearsOut t' → t' = t) := by
  obtain ⟨i, m, session, g, hi, hm, hsession, heffect, hact, hlogged⟩ :=
    (worldAt l steps w k).effect_of_mem_logged l.enabled a e t he ht
  rw [hlogged] at he
  obtain ⟨-, hevent, -⟩ := heffect.logged.data_eq he List.not_mem_nil ht
  obtain ⟨htarget, hhome⟩ := World.affected_target hm hsession heffect
  rw [← hact, ← worldAt_succ l steps w ha] at htarget hhome
  have hbefore : m.IsCoherent :=
    w.isCoherent_acts l.enabled hw (historyAt l steps w k) m (List.mem_of_getElem? hm)
  have hafter : g.meter.IsCoherent :=
    w.isCoherent_acts l.enabled hw (historyAt l steps w (k + 1)) _ (List.mem_of_getElem? htarget)
  have hlive : g.snapshot.BearsOut t := heffect.bearsOut (World.now_ne_zero _) hbefore
  obtain ⟨metrics, hdecode⟩ := hafter.exists_decode
  have hread : (g.snapshot.withMetrics metrics).BearsOut t :=
    (Snapshot.bearsOut_withMetrics metrics).mpr hlive
  refine ⟨i, g.meter, session, hi, htarget, hhome, g.snapshot.encode,
    g.snapshot.withMetrics metrics, ?_, hdecode, hread, ?_⟩
  · rw [hevent]
    rfl
  · intro hterminal
    exact ⟨(hread.eq_terminal hterminal).1,
      fun t' ht' h' => hread.terminal_unique hterminal h' ht'⟩

/-- A success after the time limit is read back as a slow one, and as nothing else that has ended. -/
theorem markers_agree_with_payloads_slow :
    ∃ e ∈ (worldAt Logger.recorder ([.create "m" "c" none, .call "m" (.limit ⟨5⟩),
        .call "m" .start, .advance 9, .call "m" .ok] : List (Step Unit))
        { sessions := [{ id := "s" }] } 4).logged Logger.recorder.enabled (.call 0 .ok),
      e.marker = .data .slow ∧ ∃ payload s, e.message = payload ∧
        Snapshot.decode payload = .ok s ∧ s.timeLimit < s.executionTime ∧ ¬ s.BearsOut .ok := by
  have hw : World.Untouched { sessions := [{ id := "s" }] } := ⟨rfl, rfl, rfl, by simp⟩
  obtain ⟨i, m, session, hi, hm, hsession, payload, s, hmessage, hdecode, hslow, hterminal⟩ :=
    markers_agree_with_payloads Logger.recorder
      ([.create "m" "c" none, .call "m" (.limit ⟨5⟩), .call "m" .start, .advance 9,
        .call "m" .ok] : List (Step Unit))
      { sessions := [{ id := "s" }] } hw 4 (.call 0 .ok) rfl _ .slow
      (List.mem_of_getElem? (i := 1) rfl) rfl
  cases hi
  cases hm
  cases hsession
  refine ⟨_, List.mem_of_getElem? (i := 1) rfl, rfl, payload, s, ?_, hdecode, hslow.2.2.2.2, ?_⟩
  · rw [hmessage]
    simp [Affixes.wrap]
  · intro hok
    cases (hterminal rfl).2 .ok rfl hok

end Metering
