import Metering.Proofs.Innermost
import Metering.Proofs.Lifecycle

/-!
# Proofs: progress is reported once a period

A meter remembers the clock at its last start or report of progress, and a call for progress makes
it report again once a period has passed since then. The moments of a run at which it is started or
reports are its marks. Only a mark changes what the meter remembers, so the last mark before a call
for progress decides whether it is answered, wherever the clock was set in between. Hence between
two starts the clock at the marks grows by a period from each to the next, which bounds their
number.
-/

namespace Metering

open World

/-! ## Progress among the transitions -/

theorem Deed.transition?_eq_progress_iff {around : Surroundings} {m : Meter} {d : Deed} :
    d.transition? around m = some .progress ↔
      d = .call .progress ∧ m.reportsProgress around = true := by
  cases houtcome : m.outcome? d with
  | some outcome =>
    have hterminal : Focus.terminal (m.resolved around.now outcome).snapshot ≠ .progress := by
      intro h
      have hend := isTerminal_terminal (m.resolved around.now outcome).snapshot
      rw [h] at hend
      cases hend
    rw [transition?_of_outcome? houtcome, Option.some_inj]
    refine iff_of_false hterminal ?_
    rintro ⟨rfl, -⟩
    cases houtcome
  | none =>
    simp only [transition?, houtcome]
    split
    · simp
    · simp
    · next hprogress => simpa using fun h => absurd h hprogress

/-- A call for progress is answered by a report of progress, or else only its misuse is reported. -/
theorem Focus.progress_eq (around : Surroundings) (f : Focus) :
    f.progress around =
      if f.meter.reportsProgress around then (f.noteProgress around).emit around .progress
      else f.report f.snapshot.misuseOfProgress := by
  cases hstarted : f.meter.snapshot.isStarted with
  | false =>
    have hquiet : f.meter.reportsProgress around = false := by
      rw [Meter.reportsProgress, hstarted, Bool.false_and, Bool.false_and]
    have hmisuse : f.snapshot.misuseOfProgress = some .progressUnstarted := by
      simp [Snapshot.misuseOfProgress, snapshot, hstarted]
    rw [progress_of_unstarted hstarted, hquiet, hmisuse]
    rfl
  | true =>
    have hmisuse : f.snapshot.misuseOfProgress = none := by
      simp [Snapshot.misuseOfProgress, snapshot, hstarted]
    rw [progress_of_started hstarted, hmisuse]
    rfl

theorem Deeds.lastReport_cons {ds : Deeds} {period : Duration} {now : UInt64} {d : Deed} :
    lastReport period ((now, d) :: ds) =
      if d = .call .start ∨ d = .call .progress ∧ ds.heeds period now = true then now
      else ds.lastReport period := by
  cases d with
  | call c => cases c <;> simp [lastReport, heeds]
  | part name => simp [lastReport]
  | drop unwinding => simp [lastReport]

/-! ## Moments of a meter -/

section

variable {α : Type} (l : Logger) (steps : List (Step α)) (w : World) (i : Nat)

/-- What is done to a meter at a moment of a run, if anything is. -/
def deedAt (k : Nat) : Option Deed :=
  ((runScript l steps w).1.history[k]?).bind (Action.deedOn? i)

/-- The transition that a meter makes at a moment of a run, if it makes one. -/
def transitionAt (k : Nat) : Option Transition := do
  let d ← deedAt l steps w i k
  let m ← (worldAt l steps w k).meters[i]?
  let session ← (worldAt l steps w k).sessions[m.session]?
  d.transition? ((worldAt l steps w k).surroundings l.enabled session) m

/-- The clock at a moment of a run. -/
def clockAt (k : Nat) : Nat := (worldAt l steps w k).now.toNat

/-- Whether a meter is started or reports progress at a moment of a run. -/
def MarksAt (k : Nat) : Prop :=
  (runScript l steps w).1.history[k]? = some (.call i .start) ∨
    transitionAt l steps w i k = some .progress

/-- Whether a moment is the last mark of a meter before another moment. -/
structure IsLastMark (j k : Nat) : Prop where
  /-- It comes before the other moment. -/
  lt : j < k
  /-- It is a mark. -/
  marks : MarksAt l steps w i j
  /-- There is none in between. -/
  quiet : ∀ n, j < n → n < k → ¬ MarksAt l steps w i n

/-- How often a meter reports progress in the first `n` moments of a run, up to a time. -/
def reportsBy (n t : Nat) : Nat :=
  (List.range n).countP fun k =>
    transitionAt l steps w i k == some .progress && decide (clockAt l steps w k ≤ t)

/-- Whether a meter reports progress in a run just as a period in nanoseconds allows it. -/
structure Throttled (period : Nat) : Prop where
  /-- Progress is reported only where it is called for. -/
  called : ∀ k, transitionAt l steps w i k = some .progress →
    (runScript l steps w).1.history[k]? = some (.call i .progress)
  /-- A call for progress performs the whole transition, or nothing but the report of a misuse. -/
  performed : ∀ k, (runScript l steps w).1.history[k]? = some (.call i .progress) →
    worldAt l steps w (k + 1) = (worldAt l steps w k).withMeter l.enabled i fun around f =>
      if transitionAt l steps w i k = some .progress then
        (f.noteProgress around).emit around .progress
      else f.report f.snapshot.misuseOfProgress
  /-- A call for progress is answered exactly if the meter was started and not resolved, and the
  period is zero or has passed since the last mark. -/
  answered_iff : ∀ k, (runScript l steps w).1.history[k]? = some (.call i .progress) →
    (transitionAt l steps w i k = some .progress ↔
      (∃ j < k, (runScript l steps w).1.history[j]? = some (.call i .start)) ∧
      (∀ j < k, ∀ c, (runScript l steps w).1.history[j]? = some (.call i c) →
        c.resolves = false) ∧
      (period = 0 ∨ ∃ j, IsLastMark l steps w i j k ∧
        clockAt l steps w j + period ≤ clockAt l steps w k))
  /-- A report comes a period after every mark, unless the meter was started again in between. -/
  apart : period ≠ 0 → ∀ j k, j < k → MarksAt l steps w i j →
    transitionAt l steps w i k = some .progress →
    (∀ n, j < n → n < k → (runScript l steps w).1.history[n]? ≠ some (.call i .start)) →
    clockAt l steps w j + period ≤ clockAt l steps w k
  /-- Even then it does if the clock has not gone backwards since the mark. -/
  apart_of_forward : period ≠ 0 → ∀ j k, j < k → MarksAt l steps w i j →
    transitionAt l steps w i k = some .progress →
    (∀ n, j ≤ n → n < k → clockAt l steps w n ≤ clockAt l steps w (n + 1)) →
    clockAt l steps w j + period ≤ clockAt l steps w k
  /-- A meter that is started once reports at most once for every period since then. -/
  reportsBy_le : period ≠ 0 → ∀ b n t, (runScript l steps w).1.history[b]? = some (.call i .start) →
    (∀ j < n, (runScript l steps w).1.history[j]? = some (.call i .start) → j = b) →
    reportsBy l steps w i n t ≤ (t - clockAt l steps w b) / period
  /-- Of all that happens in a run, only a mark changes the time that the meter remembers. -/
  remembered : ∀ k m m', (worldAt l steps w k).meters[i]? = some m →
    (worldAt l steps w (k + 1)).meters[i]? = some m' →
    (MarksAt l steps w i k → m'.lastProgress = (worldAt l steps w k).now) ∧
      (¬ MarksAt l steps w i k → m'.lastProgress = m.lastProgress)

end

section

variable {α : Type} {l : Logger} {steps : List (Step α)} {w : World} {i : Nat}

theorem deedAt_eq_some_iff {k : Nat} {d : Deed} :
    deedAt l steps w i k = some d ↔ (runScript l steps w).1.history[k]? = some (d.on i) := by
  rw [deedAt, Option.bind_eq_some_iff]
  constructor
  · rintro ⟨a, ha, hd⟩
    rw [ha, eq_on_of_deedOn? hd]
  · intro ha
    exact ⟨_, ha, deedOn?_on i d⟩

theorem deedsAt_succ {k : Nat} {d : Deed} (hd : deedAt l steps w i k = some d) :
    deedsAt l steps w i (k + 1) =
      ((worldAt l steps w k).now, d) :: deedsAt l steps w i k := by
  rw [deedsAt, historyAt_succ l steps w (deedAt_eq_some_iff.mp hd), deeds_concat_on,
    now_diaryOf l.enabled]
  rfl

theorem deedsAt_succ_of_none {k : Nat} (hd : deedAt l steps w i k = none) :
    deedsAt l steps w i (k + 1) = deedsAt l steps w i k := by
  cases ha : (runScript l steps w).1.history[k]? with
  | none => rw [deedsAt, historyAt_succ_of_none l steps w ha, deedsAt]
  | some a =>
    rw [deedAt, ha] at hd
    rw [deedsAt, historyAt_succ l steps w ha, deeds_concat_other _ hd, deedsAt]

/-- The deeds up to a moment are those of the moments before it. -/
theorem exists_mem_deedsAt {p : Deed → Prop} {k : Nat} :
    (∃ entry ∈ deedsAt l steps w i k, p entry.2) ↔
      ∃ j < k, ∃ d, deedAt l steps w i j = some d ∧ p d := by
  induction k with
  | zero =>
    have hnil : deedsAt l steps w i 0 = [] := rfl
    simp [hnil]
  | succ k ih =>
    rw [Nat.exists_lt_succ_right, ← ih]
    cases hd : deedAt l steps w i k with
    | none => simp [deedsAt_succ_of_none hd]
    | some d => simp [deedsAt_succ hd, or_comm]

theorem isStarted_deedsAt_iff {k : Nat} : (deedsAt l steps w i k).isStarted = true ↔
    ∃ j < k, (runScript l steps w).1.history[j]? = some (.call i .start) := by
  have hmem := @exists_mem_deedsAt α l steps w i (· = .call .start) k
  simp only [exists_eq_right, deedAt_eq_some_iff] at hmem
  simp only [Deeds.isStarted, List.any_eq_true, beq_iff_eq]
  exact hmem

theorem isResolved_deedsAt_iff {k : Nat} (h : (deedsAt l steps w i k).Undropped) :
    (deedsAt l steps w i k).isResolved = false ↔
      ∀ j < k, ∀ c, (runScript l steps w).1.history[j]? = some (.call i c) →
        c.resolves = false := by
  have hmem := @exists_mem_deedsAt α l steps w i (Deed.resolves · = true) k
  rw [← Deeds.endings_eq_zero_iff, Deeds.endings_eq_resolutions h, Deeds.resolutions,
    List.countP_eq_zero]
  constructor
  · intro hnone j hj c hc
    by_contra hresolves
    obtain ⟨entry, hentry, hp⟩ := hmem.mpr
      ⟨j, hj, .call c, deedAt_eq_some_iff.mpr hc, Bool.eq_true_of_not_eq_false hresolves⟩
    exact hnone entry hentry hp
  · intro hcalls entry hentry hp
    obtain ⟨j, hj, d, hd, hresolves⟩ := hmem.mp ⟨entry, hentry, hp⟩
    cases d with
    | call c =>
      have hquiet := hcalls j hj c (deedAt_eq_some_iff.mp hd)
      cases hresolves.symm.trans hquiet
    | part name | drop unwinding => cases hresolves

/-! ## Marks -/

theorem isLastMark_succ_iff {j k : Nat} : IsLastMark l steps w i j (k + 1) ↔
    j = k ∧ MarksAt l steps w i k ∨ ¬ MarksAt l steps w i k ∧ IsLastMark l steps w i j k := by
  constructor
  · rintro ⟨hlt, hmarks, hquiet⟩
    by_cases hjk : j = k
    · exact Or.inl ⟨hjk, hjk ▸ hmarks⟩
    · refine Or.inr ⟨hquiet k (by omega) (Nat.lt_succ_self k), by omega, hmarks, ?_⟩
      exact fun n hjn hnk => hquiet n hjn (by omega)
  · rintro (⟨rfl, hmarks⟩ | ⟨hk, hlt, hmarks, hquiet⟩)
    · exact ⟨Nat.lt_succ_self j, hmarks, fun n hjn hnj => by omega⟩
    · refine ⟨by omega, hmarks, fun n hjn hnk => ?_⟩
      by_cases hn : n = k
      · exact hn ▸ hk
      · exact hquiet n hjn (by omega)

/-- After a mark there is a last one. -/
theorem MarksAt.exists_isLastMark {j k : Nat} (h : MarksAt l steps w i j) (hjk : j < k) :
    ∃ n, j ≤ n ∧ IsLastMark l steps w i n k := by
  induction k with
  | zero => cases hjk
  | succ k ih =>
    by_cases hk : MarksAt l steps w i k
    · exact ⟨k, Nat.le_of_lt_succ hjk, isLastMark_succ_iff.mpr (Or.inl ⟨rfl, hk⟩)⟩
    · have hne : j ≠ k := fun heq => hk (heq ▸ h)
      obtain ⟨n, hjn, hn⟩ := ih (by omega)
      exact ⟨n, hjn, isLastMark_succ_iff.mpr (Or.inr ⟨hk, hn⟩)⟩

/-! ## Periods between marks -/

section

variable {period : Nat} (hperiod : ∀ j k, IsLastMark l steps w i j k →
  transitionAt l steps w i k = some .progress →
    clockAt l steps w j + period ≤ clockAt l steps w k)

include hperiod

theorem clockAt_add_le_of_no_start {j k : Nat} (hjk : j < k) (hj : MarksAt l steps w i j)
    (hk : transitionAt l steps w i k = some .progress)
    (hstarts : ∀ n, j < n → n < k →
      (runScript l steps w).1.history[n]? ≠ some (.call i .start)) :
    clockAt l steps w j + period ≤ clockAt l steps w k := by
  induction k using Nat.strong_induction_on with
  | _ k ih =>
    obtain ⟨n, hjn, hn⟩ := hj.exists_isLastMark hjk
    have hlast := hperiod n k hn hk
    rcases Nat.eq_or_lt_of_le hjn with rfl | hlt
    · exact hlast
    -- The last mark is not a start, so it is a report itself.
    · have hreport := hn.marks.resolve_left (hstarts n hlt hn.lt)
      have hrest := ih n hn.lt hlt hreport fun n' hjn' hnn' => hstarts n' hjn' (hnn'.trans hn.lt)
      omega

omit hperiod in
theorem clockAt_le_of_forward {j k : Nat}
    (hforward : ∀ n, j ≤ n → n < k → clockAt l steps w n ≤ clockAt l steps w (n + 1)) {n : Nat}
    (hjn : j ≤ n) (hnk : n ≤ k) : clockAt l steps w j ≤ clockAt l steps w n := by
  induction n, hjn using Nat.le_induction with
  | base => exact le_rfl
  | succ n hjn ih => exact (ih (Nat.le_of_lt hnk)).trans (hforward n hjn hnk)

theorem clockAt_add_le_of_forward {j k : Nat} (hjk : j < k) (hj : MarksAt l steps w i j)
    (hk : transitionAt l steps w i k = some .progress)
    (hforward : ∀ n, j ≤ n → n < k → clockAt l steps w n ≤ clockAt l steps w (n + 1)) :
    clockAt l steps w j + period ≤ clockAt l steps w k := by
  obtain ⟨n, hjn, hn⟩ := hj.exists_isLastMark hjk
  have hlast := hperiod n k hn hk
  have hle := clockAt_le_of_forward hforward hjn (Nat.le_of_lt hn.lt)
  omega

omit hperiod in
theorem reportsBy_succ (n t : Nat) : reportsBy l steps w i (n + 1) t =
    reportsBy l steps w i n t +
      if transitionAt l steps w i n = some .progress ∧ clockAt l steps w n ≤ t then 1 else 0 := by
  simp [reportsBy, List.range_succ]

variable (hstarted : ∀ k, transitionAt l steps w i k = some .progress →
    ∃ j < k, (runScript l steps w).1.history[j]? = some (.call i .start))
  {b n : Nat}
  (honce : ∀ j < n, (runScript l steps w).1.history[j]? = some (.call i .start) → j = b)

include hstarted honce

/-- Every mark of a meter that is started once comes at its start or after it. -/
theorem clockAt_add_le_of_once {j k : Nat} (hjk : j < k) (hkn : k < n)
    (hj : MarksAt l steps w i j) (hk : transitionAt l steps w i k = some .progress) :
    clockAt l steps w j + period ≤ clockAt l steps w k := by
  refine clockAt_add_le_of_no_start hperiod hjk hj hk ?_
  intro n' hjn' hnk' hstart
  have hn' := honce n' (hnk'.trans hkn) hstart
  rcases hj with hj | hj
  · have hjb := honce j (hjk.trans hkn) hj
    omega
  · obtain ⟨j', hj', hstart'⟩ := hstarted j hj
    have hjb := honce j' (hj'.trans (hjk.trans hkn)) hstart'
    omega

theorem reportsBy_mul_le {k : Nat} (hkn : k ≤ n) (t : Nat) : reportsBy l steps w i k t = 0 ∨
    clockAt l steps w b + reportsBy l steps w i k t * period ≤ t := by
  have hgap := @clockAt_add_le_of_once α l steps w i period hperiod hstarted b n honce
  induction k generalizing t with
  | zero => exact Or.inl rfl
  | succ k ih =>
    have hbefore := ih (by omega)
    rw [reportsBy_succ]
    split
    · next hreport =>
      obtain ⟨hk, hle⟩ := hreport
      -- The reports before this one came a period earlier at the latest.
      have hsame : reportsBy l steps w i k t =
          reportsBy l steps w i k (clockAt l steps w k - period) := by
        refine List.countP_congr fun j hj => ?_
        simp only [Bool.and_eq_true, beq_iff_eq, decide_eq_true_eq]
        refine and_congr_right fun hj' => ?_
        have hearlier := hgap (List.mem_range.mp hj) hkn (Or.inr hj') hk
        omega
      obtain ⟨j, hjk, hj⟩ := hstarted k hk
      obtain rfl := honce j (hjk.trans hkn) hj
      have hfirst := hgap hjk hkn (Or.inl hj) hk
      rw [hsame, Nat.add_mul, Nat.one_mul]
      refine Or.inr ?_
      rcases hbefore (clockAt l steps w k - period) with hnone | hsome
      · rw [hnone]
        omega
      · omega
    · exact hbefore t

end

/-! ## Reports of progress -/

section

variable (hw : w.Untouched)

include hw

theorem isLive_of_deedAt {k : Nat} {d : Deed} (hd : deedAt l steps w i k = some d) :
    IsLive l.enabled w (historyAt l steps w k) i := by
  have horderly := orderly_historyAt l steps hw (k + 1)
  rw [historyAt_succ l steps w (deedAt_eq_some_iff.mp hd)] at horderly
  exact horderly.of_concat.2 i (target?_on i d)

variable {m : Meter} {config : Config} (hm : (runScript l steps w).1.world.meters[i]? = some m)
  (hconfig : w.config? m.session = some config)

include hm hconfig

/-- At every moment a meter follows its deeds, in the session that it ends in. -/
theorem exists_follows_at {k : Nat} {n : Meter} (hn : (worldAt l steps w k).meters[i]? = some n) :
    ∃ m₀ session, (worldAt l steps w k).sessions[n.session]? = some session ∧
      session.config = config ∧
      n.Follows m₀ config.progressPeriod (deedsAt l steps w i k) := by
  obtain ⟨m₀, session, hsession, hfollows⟩ := (orderly_historyAt l steps hw k).exists_follows hw hn
  obtain ⟨m', hm', hsame⟩ := exists_meter_acts (P := fun m' => m'.session = n.session)
    (fun _ _ _ _ hchange => hchange.session_eq.trans) l.enabled (worldAt l steps w k)
    ((runScript l steps w).1.history.drop k) i ⟨n, hn, rfl⟩
  rw [acts_drop_worldAt] at hm'
  obtain rfl := Option.some.inj (hm.symm.trans hm')
  rw [hsame, config?_eq_some_iff l.enabled w (historyAt l steps w k)] at hconfig
  obtain ⟨session', hsession', rfl⟩ := hconfig
  obtain rfl := Option.some.inj (hsession.symm.trans hsession')
  exact ⟨m₀, session, hsession, rfl, hfollows⟩

theorem transitionAt_eq_progress_iff {k : Nat} : transitionAt l steps w i k = some .progress ↔
    deedAt l steps w i k = some (.call .progress) ∧
      (deedsAt l steps w i k).heeds config.progressPeriod (worldAt l steps w k).now = true := by
  cases hd : deedAt l steps w i k with
  | none => simp [transitionAt, hd]
  | some d =>
    obtain ⟨n, hn⟩ : ∃ n, (worldAt l steps w k).meters[i]? = some n :=
      (isLive_of_deedAt hw hd).exists_meter
    obtain ⟨m₀, session, hsession, hperiod, hfollows⟩ := exists_follows_at hw hm hconfig hn
    have hreports : n.reportsProgress ((worldAt l steps w k).surroundings l.enabled session) =
        (deedsAt l steps w i k).heeds config.progressPeriod (worldAt l steps w k).now :=
      hfollows.reportsProgress (timed_diaryOf i w.clock _) (congrArg Config.progressPeriod hperiod)
    have htransition : transitionAt l steps w i k =
        d.transition? ((worldAt l steps w k).surroundings l.enabled session) n := by
      simp only [transitionAt, hd, hn, hsession, Option.bind_eq_bind, Option.bind_some]
    rw [htransition, Deed.transition?_eq_progress_iff, hreports, Option.some_inj]

theorem marksAt_iff {k : Nat} : MarksAt l steps w i k ↔
    ∃ d, deedAt l steps w i k = some d ∧ (d = .call .start ∨ d = .call .progress ∧
      (deedsAt l steps w i k).heeds config.progressPeriod (worldAt l steps w k).now = true) := by
  rw [MarksAt, transitionAt_eq_progress_iff hw hm hconfig]
  constructor
  · rintro (hstart | ⟨hprogress, hheeds⟩)
    · exact ⟨.call .start, deedAt_eq_some_iff.mpr hstart, Or.inl rfl⟩
    · exact ⟨.call .progress, hprogress, Or.inr ⟨rfl, hheeds⟩⟩
  · rintro ⟨d, hd, rfl | ⟨rfl, hheeds⟩⟩
    · exact Or.inl (deedAt_eq_some_iff.mp hd)
    · exact Or.inr ⟨hd, hheeds⟩

theorem lastReport_succ_of_marks {k : Nat} (h : MarksAt l steps w i k) :
    (deedsAt l steps w i (k + 1)).lastReport config.progressPeriod =
      (worldAt l steps w k).now := by
  obtain ⟨d, hd, hmarks⟩ := (marksAt_iff hw hm hconfig).mp h
  rw [deedsAt_succ hd, Deeds.lastReport_cons, if_pos hmarks]

theorem lastReport_succ_of_not_marks {k : Nat} (h : ¬ MarksAt l steps w i k) :
    (deedsAt l steps w i (k + 1)).lastReport config.progressPeriod =
      (deedsAt l steps w i k).lastReport config.progressPeriod := by
  cases hd : deedAt l steps w i k with
  | none => rw [deedsAt_succ_of_none hd]
  | some d =>
    have hquiet := fun hmarks => h ((marksAt_iff hw hm hconfig).mpr ⟨d, hd, hmarks⟩)
    rw [deedsAt_succ hd, Deeds.lastReport_cons, if_neg hquiet]

/-- What a meter remembers is the clock at its last mark. -/
theorem IsLastMark.lastReport_eq {j k : Nat} (h : IsLastMark l steps w i j k) :
    (deedsAt l steps w i k).lastReport config.progressPeriod = (worldAt l steps w j).now := by
  induction k with
  | zero => cases h.lt
  | succ k ih =>
    rcases isLastMark_succ_iff.mp h with ⟨rfl, hmarks⟩ | ⟨hquiet, hlast⟩
    · exact lastReport_succ_of_marks hw hm hconfig hmarks
    · rw [lastReport_succ_of_not_marks hw hm hconfig hquiet]
      exact ih hlast

theorem period_le_of_isLastMark (hpositive : config.progressPeriod.nanos ≠ 0) (j k : Nat)
    (hj : IsLastMark l steps w i j k) (hk : transitionAt l steps w i k = some .progress) :
    clockAt l steps w j + config.progressPeriod.nanos ≤ clockAt l steps w k := by
  obtain ⟨-, hheeds⟩ := (transitionAt_eq_progress_iff hw hm hconfig).mp hk
  rw [Deeds.heeds, Bool.and_eq_true, hj.lastReport_eq hw hm hconfig] at hheeds
  simpa [clockAt, Duration.hasPassed, hpositive] using hheeds.2

theorem exists_start_of_progress (k : Nat) (hk : transitionAt l steps w i k = some .progress) :
    ∃ j < k, (runScript l steps w).1.history[j]? = some (.call i .start) := by
  obtain ⟨-, hheeds⟩ := (transitionAt_eq_progress_iff hw hm hconfig).mp hk
  rw [Deeds.heeds, Bool.and_eq_true, Bool.and_eq_true] at hheeds
  exact isStarted_deedsAt_iff.mp hheeds.1.1

theorem progress_answered_iff {k : Nat}
    (hk : (runScript l steps w).1.history[k]? = some (.call i .progress)) :
    transitionAt l steps w i k = some .progress ↔
      (∃ j < k, (runScript l steps w).1.history[j]? = some (.call i .start)) ∧
      (∀ j < k, ∀ c, (runScript l steps w).1.history[j]? = some (.call i c) →
        c.resolves = false) ∧
      (config.progressPeriod.nanos = 0 ∨ ∃ j, IsLastMark l steps w i j k ∧
        clockAt l steps w j + config.progressPeriod.nanos ≤ clockAt l steps w k) := by
  have hd : deedAt l steps w i k = some (.call .progress) := deedAt_eq_some_iff.mpr hk
  have hundropped : (deedsAt l steps w i k).Undropped :=
    undropped_diaryOf (isLive_of_deedAt hw hd).2
  rw [transitionAt_eq_progress_iff hw hm hconfig, and_iff_right hd, Deeds.heeds, Bool.and_eq_true,
    Bool.and_eq_true, Bool.not_eq_true', isStarted_deedsAt_iff, isResolved_deedsAt_iff hundropped,
    and_assoc]
  refine and_congr_right fun hstarted => and_congr_right fun _ => ?_
  rw [Duration.hasPassed, Bool.or_eq_true, decide_eq_true_iff, decide_eq_true_iff]
  refine or_congr_right ?_
  constructor
  -- A meter that was started has a last mark.
  · intro hpassed
    obtain ⟨j, hjk, hstart⟩ := hstarted
    obtain ⟨n, -, hn⟩ := MarksAt.exists_isLastMark (Or.inl hstart) hjk
    rw [hn.lastReport_eq hw hm hconfig] at hpassed
    exact ⟨n, hn, hpassed⟩
  · rintro ⟨j, hj, hpassed⟩
    rw [hj.lastReport_eq hw hm hconfig]
    exact hpassed

theorem worldAt_succ_of_progress {k : Nat}
    (hk : (runScript l steps w).1.history[k]? = some (.call i .progress)) :
    worldAt l steps w (k + 1) = (worldAt l steps w k).withMeter l.enabled i fun around f =>
      if transitionAt l steps w i k = some .progress then
        (f.noteProgress around).emit around .progress
      else f.report f.snapshot.misuseOfProgress := by
  have hd : deedAt l steps w i k = some (.call .progress) := deedAt_eq_some_iff.mpr hk
  obtain ⟨n, hn⟩ : ∃ n, (worldAt l steps w k).meters[i]? = some n :=
    (isLive_of_deedAt hw hd).exists_meter
  obtain ⟨m₀, session, hsession, -, -⟩ := exists_follows_at hw hm hconfig hn
  have htransition : transitionAt l steps w i k = some .progress ↔
      n.reportsProgress ((worldAt l steps w k).surroundings l.enabled session) = true := by
    simp only [transitionAt, hd, hn, hsession, Option.bind_eq_bind, Option.bind_some]
    simp [Deed.transition?_eq_progress_iff]
  rw [worldAt_succ l steps w hk, act, call, withMeter_of_getElem? _ _ _ _ hn hsession,
    withMeter_of_getElem? _ _ _ _ hn hsession, Focus.perform, Focus.progress_eq]
  simp only [htransition]

theorem remembered_at (k : Nat) (n n' : Meter) (hn : (worldAt l steps w k).meters[i]? = some n)
    (hn' : (worldAt l steps w (k + 1)).meters[i]? = some n') :
    (MarksAt l steps w i k → n'.lastProgress = (worldAt l steps w k).now) ∧
      (¬ MarksAt l steps w i k → n'.lastProgress = n.lastProgress) := by
  obtain ⟨m₀, session, -, -, hbefore⟩ := exists_follows_at hw hm hconfig hn
  obtain ⟨m₁, session', -, -, hafter⟩ := exists_follows_at hw hm hconfig hn'
  rw [hbefore.lastProgress, hafter.lastProgress]
  exact ⟨lastReport_succ_of_marks hw hm hconfig, lastReport_succ_of_not_marks hw hm hconfig⟩

end
end

/-- Progress is throttled for every meter of every script, whatever the clock is set to, by the
period of the session that the meter is from. -/
theorem progress_is_throttled {α : Type} (l : Logger) (steps : List (Step α)) (w : World)
    (hw : w.Untouched) (i : Nat) (m : Meter)
    (hm : (runScript l steps w).1.world.meters[i]? = some m) :
    ∃ config, w.config? m.session = some config ∧
      Throttled l steps w i config.progressPeriod.nanos := by
  obtain ⟨m₀, session, hsession, -⟩ :=
    (owns_runScript l steps hw).orderly.exists_follows hw (world_runScript l steps w ▸ hm)
  have hconfig := (config?_eq_some_iff l.enabled w _ m.session).mpr ⟨session, hsession, rfl⟩
  have hperiod := period_le_of_isLastMark hw hm hconfig
  refine ⟨session.config, hconfig, ?_⟩
  constructor
  case called =>
    intro k hk
    exact deedAt_eq_some_iff.mp ((transitionAt_eq_progress_iff hw hm hconfig).mp hk).1
  case performed => exact fun k => worldAt_succ_of_progress hw hm hconfig
  case answered_iff => exact fun k => progress_answered_iff hw hm hconfig
  case apart =>
    intro hpositive j k hjk hj hk hstarts
    exact clockAt_add_le_of_no_start (hperiod hpositive) hjk hj hk hstarts
  case apart_of_forward =>
    intro hpositive j k hjk hj hk hforward
    exact clockAt_add_le_of_forward (hperiod hpositive) hjk hj hk hforward
  case reportsBy_le =>
    intro hpositive b n t hb honce
    rw [Nat.le_div_iff_mul_le (Nat.pos_of_ne_zero hpositive)]
    rcases reportsBy_mul_le (hperiod hpositive) (exists_start_of_progress hw hm hconfig) honce
      le_rfl t with hnone | hsome
    · rw [hnone]
      omega
    · omega
  case remembered => exact fun k m m' => remembered_at hw hm hconfig k m m'

/-- With a period of two seconds a call is answered after two seconds, and the next one after one
nanosecond more is not. -/
theorem progress_is_throttled_twice :
    transitionAt Logger.recorder ([.create "m" "c" none, .call "m" .start, .advance 2000000000,
        .call "m" .progress, .advance 1, .call "m" .progress] : List (Step Unit))
        { sessions := [{ id := "s" }] } 0 3 = some .progress ∧
      transitionAt Logger.recorder ([.create "m" "c" none, .call "m" .start, .advance 2000000000,
        .call "m" .progress, .advance 1, .call "m" .progress] : List (Step Unit))
        { sessions := [{ id := "s" }] } 0 5 ≠ some .progress := by
  obtain ⟨config, hconfig, h⟩ := progress_is_throttled Logger.recorder
    ([.create "m" "c" none, .call "m" .start, .advance 2000000000, .call "m" .progress, .advance 1,
      .call "m" .progress] : List (Step Unit)) { sessions := [{ id := "s" }] }
    ⟨rfl, rfl, rfl, by simp⟩ 0 _ rfl
  obtain rfl := Option.some.inj hconfig
  have hreport : transitionAt Logger.recorder ([.create "m" "c" none, .call "m" .start,
      .advance 2000000000, .call "m" .progress, .advance 1, .call "m" .progress] :
        List (Step Unit)) { sessions := [{ id := "s" }] } 0 3 = some .progress := by
    decide +kernel
  refine ⟨hreport, fun hagain => ?_⟩
  have hle := h.apart (by decide) 3 5 (by decide) (Or.inr hreport) hagain ?_
  · revert hle
    decide +kernel
  · intro n h₁ h₂ hstart
    obtain rfl : n = 4 := by omega
    cases hstart

end Metering
