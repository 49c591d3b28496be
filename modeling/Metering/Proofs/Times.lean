import Metering.Proofs.OwnHistory

/-!
# Proofs: waiting and execution add up

A snapshot has four times, and an operation may be started again, resolved before its start and
resolved more than once. So a stop may well lie before the start. As long as the clock never goes
backwards, though, this happens only where nothing has been noted since the start, and the execution
time counts as zero. Hence the execution time is always the time from the last start to the last
change, and together with the waiting time it makes up the whole time since the creation.
-/

namespace Metering

namespace Snapshot

/-- Whether the times of a snapshot fit together where the clock shows `now`. -/
structure Timely (now : UInt64) (s : Snapshot) : Prop where
  /-- The creation comes first. -/
  create_le : s.createTime ≤ s.lastTime
  /-- Nothing happened later than now. -/
  last_le : s.lastTime ≤ now
  /-- A start is between the creation and the last change. -/
  start : s.isStarted = true → s.createTime ≤ s.startTime ∧ s.startTime ≤ s.lastTime
  /-- A stop is not after the last change. -/
  stop_le : s.stopTime ≤ s.lastTime
  /-- The last change is the stop, unless the operation was started after it. -/
  stop : s.isStopped = true → s.stopTime = s.lastTime ∨ s.startTime = s.lastTime

variable {now : UInt64} {s : Snapshot}

theorem Timely.mono (h : s.Timely now) {later : UInt64} (hlater : now ≤ later) :
    s.Timely later :=
  { h with last_le := UInt64.le_trans h.last_le hlater }

theorem Timely.toNat_executionTime (h : s.Timely now) (hstarted : s.isStarted = true) :
    s.executionTime.toNat = s.lastTime.toNat - s.startTime.toNat := by
  have hstart : s.startTime ≠ 0 := bne_iff_ne.mp hstarted
  have hle := UInt64.le_iff_toNat_le.mp (h.start hstarted).2
  have hstop := UInt64.le_iff_toNat_le.mp h.stop_le
  unfold executionTime
  rw [if_neg hstart]
  split
  · rw [Word.toNat_satSub]
  · next hstopped =>
    rw [Word.toNat_satSub]
    -- A stop before the start leaves nothing, and there the start is the last change.
    rcases h.stop (bne_iff_ne.mpr hstopped) with hlast | hlast
    · rw [hlast]
    · rw [hlast]
      omega

theorem executionTime_of_unstarted (hstarted : s.isStarted = false) :
    s.executionTime = 0 := by
  have hstart : s.startTime = 0 := by simpa [isStarted] using hstarted
  rw [executionTime, if_pos hstart]

theorem toNat_waitingTime :
    s.waitingTime.toNat =
      (if s.isStarted then s.startTime else s.lastTime).toNat - s.createTime.toNat := by
  unfold waitingTime isStarted
  by_cases hstart : s.startTime = 0
  · simp [hstart, Word.toNat_satSub]
  · simp [hstart, Word.toNat_satSub]

/-- No difference saturates, so the sum is exact. -/
theorem Timely.toNat_waitingTime_add (h : s.Timely now) :
    s.waitingTime.toNat + s.executionTime.toNat = s.lastTime.toNat - s.createTime.toNat := by
  rw [toNat_waitingTime]
  cases hstarted : s.isStarted with
  | false =>
    rw [executionTime_of_unstarted hstarted]
    rfl
  | true =>
    obtain ⟨hwait, hrun⟩ := h.start hstarted
    rw [UInt64.le_iff_toNat_le] at hwait hrun
    rw [h.toNat_executionTime hstarted]
    simp only [if_true]
    omega

end Snapshot

/-- Every change of a meter keeps its times fitting together. -/
theorem Meter.Change.timely {now : UInt64} {m m' : Meter} (h : Change now m m')
    (hm : m.snapshot.Timely now) : m'.snapshot.Timely now := by
  have hcreate := UInt64.le_trans hm.create_le hm.last_le
  cases h with
  | adjust a => exact { hm with }
  | start metrics =>
    refine ⟨hcreate, UInt64.le_refl now, fun _ => ⟨hcreate, UInt64.le_refl now⟩, ?_, ?_⟩
    · exact UInt64.le_trans hm.stop_le hm.last_le
    · exact fun _ => Or.inr rfl
  | progress metrics hstarted hstopped =>
    refine ⟨hcreate, UInt64.le_refl now, fun _ => ?_, ?_, fun h => ?_⟩
    · obtain ⟨hwait, hrun⟩ := hm.start hstarted
      exact ⟨hwait, UInt64.le_trans hrun hm.last_le⟩
    · exact UInt64.le_trans hm.stop_le hm.last_le
    · cases h.symm.trans hstopped
  | resolve metrics outcome hresolved =>
    refine ⟨hcreate, UInt64.le_refl now, fun hstarted => ?_, UInt64.le_refl now, fun _ => ?_⟩
    · obtain ⟨hwait, hrun⟩ := hm.start hstarted
      exact ⟨hwait, UInt64.le_trans hrun hm.last_le⟩
    · exact Or.inl rfl
  | release hresolved => exact { hm with }

namespace World

theorem timely_act {enabled : Enabled} {w : World} {a : Action}
    (hforward : w.now ≤ (w.act enabled a).now) (hw : ∀ m ∈ w.meters, m.snapshot.Timely w.now) :
    ∀ m ∈ (w.act enabled a).meters, m.snapshot.Timely (w.act enabled a).now := by
  have hact : ∀ m ∈ (w.act enabled a).meters, m.snapshot.Timely w.now := by
    refine forall_meters_act ?_ ?_ a hw
    · intro w' session position category operation parent context k hnow
      rw [← hnow]
      exact ⟨UInt64.le_refl _, UInt64.le_refl _, nofun, UInt64.zero_le, nofun⟩
    · intro m m' hchange hm
      exact hchange.timely hm
  intro m hm
  exact (hact m hm).mono hforward

end World

open World

section

variable {α : Type} (l : Logger) (steps : List (Step α)) {w : World} (hw : w.Untouched)

include hw

theorem timely_worldAt (n : Nat)
    (hclock : ∀ j < n, (worldAt l steps w j).now ≤ (worldAt l steps w (j + 1)).now) :
    ∀ m ∈ (worldAt l steps w n).meters, m.snapshot.Timely (worldAt l steps w n).now := by
  induction n with
  | zero => exact hw.forall_meters _
  | succ n ih =>
    have hn := ih fun j hj => hclock j (Nat.lt_succ_of_lt hj)
    have hforward := hclock n (Nat.lt_succ_self n)
    cases ha : (runScript l steps w).1.history[n]? with
    | some a =>
      rw [worldAt_succ l steps w ha] at hforward ⊢
      exact timely_act hforward hn
    | none =>
      -- The run is over, and the world stays as it is.
      have hsame : worldAt l steps w (n + 1) = worldAt l steps w n := by
        rw [worldAt, historyAt, List.take_add_one, ha, worldAt, historyAt]
        exact congrArg _ (List.append_nil _)
      rw [hsame]
      exact hn

end

/-- As long as the clock of a script has never gone backwards, every meter has changed last after
its creation. From its last start, if there is one, it has executed up to its last change, and
before that it has waited. The two times add up to the time from its creation to its last change, in
the natural numbers, so that no difference and no sum leaves the range of a word. -/
theorem waiting_and_execution_add_up {α : Type} (l : Logger) (steps : List (Step α)) (w : World)
    (hw : w.Untouched) (n : Nat)
    (hclock : ∀ j < n, (worldAt l steps w j).now ≤ (worldAt l steps w (j + 1)).now) (i : Nat)
    (m : Meter) (hm : (worldAt l steps w n).meters[i]? = some m) :
    m.snapshot.createTime ≤ m.snapshot.lastTime ∧
      ((deedsAt l steps w i n).isStarted = true →
        m.snapshot.createTime ≤ m.snapshot.startTime ∧
          m.snapshot.startTime ≤ m.snapshot.lastTime ∧
          m.snapshot.executionTime.toNat =
            m.snapshot.lastTime.toNat - m.snapshot.startTime.toNat) ∧
      ((deedsAt l steps w i n).isStarted = false → m.snapshot.executionTime = 0) ∧
      m.snapshot.waitingTime.toNat + m.snapshot.executionTime.toNat =
        m.snapshot.lastTime.toNat - m.snapshot.createTime.toNat := by
  have htimely := timely_worldAt l steps hw n hclock m (List.mem_of_getElem? hm)
  obtain ⟨m₀, session, -, hfollows⟩ := (orderly_historyAt l steps hw n).exists_follows hw hm
  have hsame : m.snapshot.isStarted = (deedsAt l steps w i n).isStarted :=
    hfollows.isStarted (timed_diaryOf i w.clock _)
  rw [← hsame]
  refine ⟨htimely.create_le, ?_, Snapshot.executionTime_of_unstarted,
    htimely.toNat_waitingTime_add⟩
  intro hstarted
  obtain ⟨hwait, hrun⟩ := htimely.start hstarted
  exact ⟨hwait, hrun, htimely.toNat_executionTime hstarted⟩

/-- An operation that is resolved before its start and started after that has waited all along. -/
theorem waiting_and_execution_add_up_restart :
    ∃ m, (worldAt Logger.recorder ([.create "m" "c" none, .advance 4, .call "m" .ok, .advance 5,
        .call "m" .start] : List (Step Unit)) { sessions := [{ id := "s" }] } 5).meters[0]? =
          some m ∧
      m.snapshot.stopTime = 5 ∧ m.snapshot.startTime = 10 ∧
      m.snapshot.waitingTime.toNat + m.snapshot.executionTime.toNat = 9 := by
  obtain ⟨-, -, -, hsum⟩ := waiting_and_execution_add_up Logger.recorder
    ([.create "m" "c" none, .advance 4, .call "m" .ok, .advance 5, .call "m" .start] :
      List (Step Unit)) { sessions := [{ id := "s" }] } ⟨rfl, rfl, rfl, by simp⟩ 5
    (by decide +kernel) 0 _ rfl
  exact ⟨_, rfl, by decide +kernel, by decide +kernel, hsum.trans (by decide +kernel)⟩

end Metering
