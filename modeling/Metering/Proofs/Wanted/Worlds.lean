import Metering.Proofs.Wanted.Calls
import Metering.Proofs.World

/-!
# Proofs: worlds and the events that are wanted

Two worlds start alike, and the same happens in both, but in the second one everything is wanted.
They stay alike: the second one has logged all events, the first one those of them that are wanted,
and apart from this the worlds differ in the metrics of the meters only.
-/

namespace Metering.World

/-- Whether a world differs from another one, in which everything was wanted, in the sampled metrics
of the meters and in the missing events only. -/
structure Alike (enabled : Enabled) (w w' : World) : Prop where
  /-- The clocks show the same. -/
  clock : w.clock = w'.clock
  /-- The same metrics are in force. -/
  metrics : w.metrics = w'.metrics
  /-- The sessions are the same, with the positions that they have given out. -/
  sessions : w.sessions = w'.sessions
  /-- The meters are the same except for the sampled metrics. -/
  meters : w.meters.map Meter.unsampled = w'.meters.map Meter.unsampled
  /-- The same meters are active. -/
  stack : w.stack = w'.stack
  /-- The same meters are active on the threads that wait. -/
  waiting : w.waiting = w'.waiting
  /-- Exactly the events that are not wanted are missing. -/
  log : w.log = w'.log.filter (·.isLogged enabled)

variable {enabled : Enabled} {w w' : World}

theorem Alike.exists_eq (h : Alike enabled w w') :
    ∃ meters log, w' = { w with meters := meters, log := log } := by
  refine ⟨w'.meters, w'.log, ?_⟩
  rw [h.clock, h.metrics, h.sessions, h.stack, h.waiting]

theorem alike_self (hw : w.log = []) : Alike enabled w w :=
  ⟨rfl, rfl, rfl, rfl, rfl, rfl, by rw [hw, List.filter_nil]⟩

theorem Alike.length_meters (h : Alike enabled w w') : w.meters.length = w'.meters.length := by
  rw [← List.length_map Meter.unsampled, h.meters, List.length_map]

theorem Alike.getElem?_meters (h : Alike enabled w w') (i : Nat) :
    w.meters[i]?.map Meter.unsampled = w'.meters[i]?.map Meter.unsampled := by
  rw [← List.getElem?_map, ← List.getElem?_map, h.meters]

theorem Alike.snapshot? (h : Alike enabled w w') (i : Nat) :
    (w.snapshot? i).map Snapshot.unsampled = (w'.snapshot? i).map Snapshot.unsampled := by
  have hmeters := congrArg (Option.map (·.snapshot)) (h.getElem?_meters i)
  simp only [Option.map_map] at hmeters
  simp only [World.snapshot?, Option.map_map]
  exact hmeters

/-! ## What happens keeps worlds alike -/

theorem Alike.affected (h : Alike enabled w w') (i : Nat) {g g' : Focus}
    (hg : Focus.Alike enabled g g') : Alike enabled (w.affected i g) (w'.affected i g') := by
  refine ⟨h.clock, h.metrics, h.sessions, ?_, hg.stack, h.waiting, ?_⟩
  · simp only [World.affected, List.map_set, h.meters, hg.meter]
  · simp only [World.affected, List.filter_append, h.log, hg.events]

theorem Alike.withMeter (h : Alike enabled w w') (i : Nat) (act : Surroundings → Focus → Focus)
    (hact : ∀ around f f', around.enabled = enabled → Focus.Alike enabled f f' →
      Focus.Alike enabled (act around f) (act around.everything f')) :
    Alike enabled (w.withMeter enabled i act) (w'.withMeter .everything i act) := by
  have hmeters := h.getElem?_meters i
  cases hm : w.meters[i]? with
  | none =>
    have hm' : w'.meters[i]? = none := by simpa [hm] using hmeters.symm
    simp only [World.withMeter, hm, hm']
    exact h
  | some m =>
    obtain ⟨m', hm', hsame⟩ : ∃ m', w'.meters[i]? = some m' ∧ m'.unsampled = m.unsampled := by
      simpa [hm] using hmeters.symm
    have hsession : m'.session = m.session :=
      show m'.unsampled.session = m.unsampled.session by rw [hsame]
    cases hs : w.sessions[m.session]? with
    | none =>
      have hs' : w'.sessions[m'.session]? = none := by rw [hsession, ← h.sessions, hs]
      simp only [World.withMeter, hm, hm', hs, hs']
      exact h
    | some session =>
      have hs' : w'.sessions[m'.session]? = some session := by rw [hsession, ← h.sessions, hs]
      rw [withMeter_of_getElem? enabled w i act hm hs, withMeter_of_getElem? _ w' i act hm' hs']
      refine h.affected i ?_
      have hfocus : Focus.Alike enabled ⟨m, w.stack, []⟩ ⟨m', w'.stack, []⟩ :=
        ⟨hsame.symm, h.stack, rfl⟩
      have haround : w'.surroundings .everything session =
          (w.surroundings enabled session).everything := by
        simp only [surroundings, Surroundings.everything, World.now, h.clock, h.metrics]
      rw [haround]
      exact hact _ _ _ rfl hfocus

theorem Alike.create (h : Alike enabled w w') (k : Nat) (category : String)
    (operation parent : Option String) (context : Context) :
    Alike enabled (w.create k category operation parent context)
      (w'.create k category operation parent context) := by
  have hmeters := h.meters
  have hlog := h.log
  obtain ⟨meters, log, rfl⟩ := h.exists_eq
  cases hs : w.sessions[k]? with
  | none =>
    simp only [World.create, hs]
    exact h
  | some session =>
    simp only [World.create, hs]
    refine ⟨rfl, rfl, rfl, ?_, rfl, rfl, hlog⟩
    simp only [List.map_append, hmeters]
    rfl

/-- A part of an operation takes nothing from the metrics of its meter. -/
theorem Alike.createPart (h : Alike enabled w w') (i : Nat) (name : String) :
    Alike enabled (w.createPart enabled i name) (w'.createPart .everything i name) := by
  have hreported : Alike enabled
      (w.withMeter enabled i fun _ f => f.report (f.snapshot.misuseOfPart name))
      (w'.withMeter .everything i fun _ f => f.report (f.snapshot.misuseOfPart name)) := by
    apply h.withMeter
    intro around f f' _ hf
    obtain ⟨metrics, events, rfl⟩ := hf.exists_eq
    exact hf.report (f.snapshot.misuseOfPart name) (Focus.allReports_misuseOfPart _ name)
  have hmeters := hreported.getElem?_meters i
  simp only [World.createPart]
  split
  · next hm =>
    rw [hm] at hmeters
    have hm' := Option.map_eq_none_iff.mp hmeters.symm
    rw [hm']
    exact hreported
  · next m hm =>
    rw [hm] at hmeters
    obtain ⟨m', hm', hsame⟩ := Option.map_eq_some_iff.mp hmeters.symm
    rw [hm', Meter.eq_withMetrics hsame.symm]
    exact hreported.create _ _ _ _ _

theorem Alike.leaveThread (h : Alike enabled w w') :
    Alike enabled w.leaveThread w'.leaveThread := by
  have hmeters := h.meters
  have hlog := h.log
  obtain ⟨meters, log, rfl⟩ := h.exists_eq
  simp only [World.leaveThread]
  split
  · exact h
  · exact ⟨rfl, rfl, rfl, hmeters, rfl, rfl, hlog⟩

theorem Alike.act (h : Alike enabled w w') (a : Action) :
    Alike enabled (w.act enabled a) (w'.act .everything a) := by
  cases a with
  | setClock nanos => exact { h with clock := rfl }
  | advance nanos => exact { h with clock := by simp only [World.act, h.clock] }
  | setMetrics m => exact { h with metrics := rfl }
  | create k category operation => exact h.create k category operation none .empty
  | createPart i name => exact h.createPart i name
  | call i c =>
    simp only [World.act, World.call]
    apply h.withMeter
    rintro around f f' rfl hf
    exact hf.perform c
  | drop unwinding i =>
    simp only [World.act, World.drop]
    apply h.withMeter
    rintro around f f' rfl hf
    exact hf.drop unwinding
  | enterThread =>
    refine { h with stack := rfl, waiting := ?_ }
    simp only [World.act, World.enterThread, h.stack, h.waiting]
  | leaveThread => exact h.leaveThread

theorem Alike.acts (h : Alike enabled w w') (as : List Action) :
    Alike enabled (w.acts enabled as) (w'.acts .everything as) := by
  induction as generalizing w w' with
  | nil => exact h
  | cons a as ih => exact ih (h.act a)

end Metering.World
