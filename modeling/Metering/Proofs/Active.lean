import Metering.Proofs.Identity
import Metering.Proofs.Script

/-!
# Proofs: the active meters of a thread

On one thread the active meters are those that were started and are not resolved, and the thread
holds their identities. A start puts an identity on top, and a resolution takes back one occurrence
of it. So the thread holds every identity as often as there are active meters with it; and where the
identities tell the meters apart, it holds them in the order in which the meters were first started.
-/

namespace Metering

/-! ## When a meter is active -/

/-- Whether a meter is marked as active exactly when it was started and is not resolved. -/
def Meter.IsMarked (m : Meter) : Prop :=
  m.active = (m.snapshot.isStarted && !m.snapshot.outcome.isResolved)

theorem Meter.Change.isMarked {now : UInt64} {m m' : Meter} (hnow : now ≠ 0) (h : Change now m m')
    (hm : m.IsMarked) : m'.IsMarked := by
  unfold IsMarked at hm ⊢
  cases h with
  | adjust a => exact hm
  | start metrics =>
    have hstarted : (now != 0) = true := by simpa using hnow
    simp only [Meter.withMetrics, Snapshot.withMetrics, Meter.started, Snapshot.isStarted, hstarted,
      Bool.true_and]
    rw [hm]
    cases m.snapshot.isStarted <;> cases m.snapshot.outcome.isResolved <;> rfl
  | progress metrics => exact hm
  | resolve metrics outcome hresolved =>
    simp [Meter.withMetrics, Snapshot.withMetrics, Meter.resolved, hresolved]
  | release hresolved => simp [hresolved]

namespace Focus

variable {around : Surroundings} {f g : Focus} {t : Option Transition}

/-- Only a start starts an operation or makes a meter active. -/
theorem Effect.of_ne_started (h : Effect around f t g) (ht : t ≠ some .started) :
    g.snapshot.isStarted = f.snapshot.isStarted ∧
      (g.meter.active = f.meter.active ∨ f.meter.active = true ∧ g.meter.active = false) := by
  cases h with
  | adjust a es => exact ⟨rfl, Or.inl rfl⟩
  | start => exact absurd rfl ht
  | progress =>
    obtain ⟨metrics, hmeter⟩ := meter_emit around (f.noteProgress around) .progress
    rw [snapshot, hmeter]
    exact ⟨rfl, Or.inl rfl⟩
  | resolve outcome attempt =>
    obtain ⟨metrics, hmeter⟩ := meter_resolve around f outcome attempt
    rw [snapshot, hmeter]
    refine ⟨rfl, ?_⟩
    cases f.meter.active
    · exact Or.inl rfl
    · exact Or.inr ⟨rfl, rfl⟩
  | release =>
    rw [snapshot, meter_deactivate]
    refine ⟨rfl, ?_⟩
    cases f.meter.active
    · exact Or.inl rfl
    · exact Or.inr ⟨rfl, rfl⟩

theorem isResolved_drop (around : Surroundings) (f : Focus) (unwinding : Bool) :
    (f.drop around unwinding).meter.snapshot.outcome.isResolved = true := by
  unfold drop
  rw [meter_deactivate]
  split
  · next h => exact h
  · obtain ⟨metrics, hmeter⟩ := meter_resolve around f
      (.fail dropPath (if unwinding then some unwindingMessage else none)) .fail
    rw [hmeter]
    rfl

end Focus

namespace World

/-! ## How often an identity is held -/

/-- Whether a meter is active under an identity. -/
def activeAs (id : String) (m : Meter) : Bool := m.active && m.snapshot.fullId == id

/-- Whether the running thread holds every identity as often as there are active meters with it. -/
def Counted (w : World) : Prop := ∀ id, w.stack.ids.count id = w.meters.countP (activeAs id)

theorem Counted.ids_eq_nil_iff {w : World} (hw : w.Counted) :
    w.stack.ids = [] ↔ ∀ m ∈ w.meters, m.active = false := by
  constructor
  · intro hids m hm
    have hcount := hw m.snapshot.fullId
    rw [hids, List.count_nil, eq_comm, List.countP_eq_zero] at hcount
    simpa [activeAs] using hcount m hm
  · intro hinactive
    rw [List.eq_nil_iff_forall_not_mem]
    intro id
    rw [← List.count_eq_zero, hw id, List.countP_eq_zero]
    intro m hm
    simp [activeAs, hinactive m hm]

theorem counted_affected {enabled : Enabled} {w : World} (hw : w.Counted) {i : Nat} {m : Meter}
    {session : Session} {t : Option Transition} {g : Focus} (hm : w.meters[i]? = some m)
    (h : Focus.Effect (w.surroundings enabled session) ⟨m, w.stack, []⟩ t g) :
    (w.affected i g).Counted := by
  intro id
  obtain ⟨hlt, hget⟩ := List.getElem?_eq_some_iff.mp hm
  have hid : g.meter.snapshot.fullId = m.snapshot.fullId :=
    Meter.fullId_eq_of_place h.meter_change.place_eq
  have hbefore : activeAs id m = (m.active && m.snapshot.fullId == id) := rfl
  have hafter : activeAs id g.meter = (g.meter.active && m.snapshot.fullId == id) := by
    rw [activeAs, hid]
  have hcount := hw id
  have hpos : activeAs id m = true → 0 < w.meters.countP (activeAs id) := fun hactive =>
    List.countP_pos_iff.mpr ⟨m, List.mem_of_getElem? hm, hactive⟩
  have hstack := h.stack_eq
  simp only [affected, List.countP_set hlt, hget, hafter]
  rw [hbefore] at hpos ⊢
  cases hm : m.active <;> cases hg : g.meter.active
  case false.false =>
    rw [if_pos (hm.trans hg.symm)] at hstack
    simp [hstack, hcount]
  case true.true =>
    rw [if_pos (hm.trans hg.symm)] at hstack
    rw [hstack, hcount]
    by_cases hsame : m.snapshot.fullId = id
    · have := hpos (by simp [hm, hsame])
      simp only [hsame, beq_self_eq_true, Bool.and_self, if_true]
      omega
    · simp [hsame]
  case false.true =>
    simp only [hm, hg, Bool.false_eq_true, if_false, if_true] at hstack
    rw [hstack]
    by_cases hsame : m.snapshot.fullId = id
    all_goals simp [ActiveStack.push, Focus.snapshot, hsame, hcount]
  case true.false =>
    simp only [hm, hg, Bool.true_eq_false, Bool.false_eq_true, if_false] at hstack
    rw [hstack]
    by_cases hsame : m.snapshot.fullId = id
    all_goals simp [ActiveStack.remove, Focus.snapshot, hsame, hcount, List.count_erase]

theorem counted_change {enabled : Enabled} {w w' : World} (h : Change enabled w w')
    (hw : w.Counted) : w'.Counted := by
  cases h with
  | environment clock metrics => exact hw
  | affect i m session t g hm hsession heffect => exact counted_affected hw hm heffect
  | create k session category operation parent context hsession =>
    intro id
    have hcount := hw id
    simpa [created, activeAs] using hcount

theorem counted_act (enabled : Enabled) (w : World) (a : Action) (ha : a.switchesThread = false)
    (hw : w.Counted) : (w.act enabled a).Counted :=
  changes_induction (fun _ _ h => counted_change h) (changes_act w a ha) hw

/-! ## Resolved meters stay resolved -/

/-- Whether the operation of a meter is resolved. -/
def IsResolved (w : World) (i : Nat) : Prop :=
  ∃ m, w.meters[i]? = some m ∧ m.snapshot.outcome.isResolved = true

theorem isResolved_of_change {now : UInt64} {m m' : Meter} (h : Meter.Change now m m')
    (hm : m.snapshot.outcome.isResolved = true) : m'.snapshot.outcome.isResolved = true := by
  cases h with
  | resolve metrics outcome hresolved => exact hresolved
  | _ => exact hm

/-- What a meter keeps in every change it keeps for ever. -/
theorem exists_meter_acts {P : Meter → Prop}
    (hchange : ∀ now m m', now ≠ 0 → Meter.Change now m m' → P m → P m') (enabled : Enabled)
    (w : World) (as : List Action) (i : Nat) (hw : ∃ m, w.meters[i]? = some m ∧ P m) :
    ∃ m, (w.acts enabled as).meters[i]? = some m ∧ P m := by
  refine acts_change_induction enabled (P := fun w => ∃ m, w.meters[i]? = some m ∧ P m) ?_ ?_ w as
    hw
  · rintro w w' h ⟨m, hm, hP⟩
    cases h with
    | environment clock metrics => exact ⟨m, hm, hP⟩
    | affect j m' session t g hm' hsession heffect =>
      by_cases hij : j = i
      · subst hij
        obtain rfl : m' = m := Option.some.inj (hm'.symm.trans hm)
        refine ⟨g.meter, ?_, hchange w.now m' _ w.now_ne_zero heffect.meter_change hP⟩
        exact List.getElem?_set_self (List.getElem?_eq_some_iff.mp hm).1
      · exact ⟨m, by rw [affected, List.getElem?_set_ne hij, hm], hP⟩
    | create k session category operation parent context hsession =>
      refine ⟨m, ?_, hP⟩
      rw [created, List.getElem?_append_left (List.getElem?_eq_some_iff.mp hm).1, hm]
  · intro w w' hmeters _ hw
    rwa [hmeters]

theorem isResolved_acts (enabled : Enabled) (w : World) (as : List Action) (i : Nat)
    (hw : w.IsResolved i) : (w.acts enabled as).IsResolved i :=
  exists_meter_acts (fun _ _ _ _ => isResolved_of_change) enabled w as i hw

/-- Whether every meter comes from a session that there is. -/
def HasSessions (w : World) : Prop := ∀ m ∈ w.meters, m.session < w.sessions.length

theorem hasSessions_change {enabled : Enabled} {w w' : World} (h : Change enabled w w')
    (hw : w.HasSessions) : w'.HasSessions := by
  cases h with
  | environment clock metrics => exact hw
  | affect i m session t g hm hsession heffect =>
    intro m' hm'
    rcases List.mem_or_eq_of_mem_set hm' with hmem | rfl
    · exact hw m' hmem
    · rw [heffect.meter_change.session_eq]
      exact hw m (List.mem_of_getElem? hm)
  | create k session category operation parent context hsession =>
    intro m' hm'
    simp only [created, List.length_set]
    rcases List.mem_append.mp hm' with hmem | hmem
    · exact hw m' hmem
    · rw [List.mem_singleton.mp hmem]
      exact (List.getElem?_eq_some_iff.mp hsession).1

/-- What is known of a world at any time: the meters are marked and numbered and have sessions. -/
structure Sound (w : World) : Prop where
  /-- The meters that are active are marked so. -/
  marked : ∀ m ∈ w.meters, m.IsMarked
  /-- Every meter comes from a session. -/
  hasSessions : w.HasSessions
  /-- The sessions have counted their meters. -/
  numbered : ∀ k, w.population k < 2 ^ 64 → w.Numbered k

theorem hasSessions_acts (enabled : Enabled) (w : World) (as : List Action) (hw : w.HasSessions) :
    (w.acts enabled as).HasSessions := by
  refine acts_change_induction enabled (P := HasSessions) ?_ ?_ w as hw
  · intro w w' h hw
    exact hasSessions_change h hw
  · intro w w' hmeters hsessions hw
    rwa [HasSessions, hmeters, hsessions]

theorem sound_acts (enabled : Enabled) (w : World) (hw : w.Untouched) (as : List Action) :
    (w.acts enabled as).Sound where
  marked := by
    refine forall_meters_acts ?_ ?_ w as (hw.forall_meters _)
    · intros
      rfl
    · intro now m m' hnow h hm
      exact h.isMarked hnow hm
  hasSessions := hasSessions_acts enabled w as (hw.forall_meters _)
  numbered := numbered_acts enabled w hw as

theorem exists_session {enabled : Enabled} {w : World} (hw : w.Untouched) {as : List Action}
    {i : Nat} {m : Meter} (hm : (w.acts enabled as).meters[i]? = some m) :
    ∃ session, (w.acts enabled as).sessions[m.session]? = some session :=
  ⟨_, List.getElem?_eq_getElem
    ((sound_acts enabled w hw as).hasSessions m (List.mem_of_getElem? hm))⟩

end World
end Metering
