import Mathlib.Logic.Relation
import Metering.Proofs.Meter
import Metering.World

/-!
# Proofs: what happens in a world

On one thread an action changes a world in three ways only: the clock and the metrics are set, one
meter is affected together with the active meters and the log, or one session gives out a position
to a new meter. What every such change keeps is kept by every sequence of actions.
-/

namespace Metering.World

/-! ## Sequences of actions -/

section

variable (enabled : Enabled)

theorem acts_append (w : World) (as bs : List Action) :
    w.acts enabled (as ++ bs) = (w.acts enabled as).acts enabled bs := by
  simp only [acts, List.foldl_append]

theorem acts_concat (w : World) (as : List Action) (a : Action) :
    w.acts enabled (as ++ [a]) = (w.acts enabled as).act enabled a := by
  simp only [acts, List.foldl_append, List.foldl_cons, List.foldl_nil]

/-- What every action keeps is kept by a sequence of them. -/
theorem acts_induction {P : World → Prop} (hact : ∀ w a, P w → P (w.act enabled a)) (w : World)
    (as : List Action) (h : P w) : P (w.acts enabled as) := by
  induction as generalizing w with
  | nil => exact h
  | cons a as ih => exact ih _ (hact w a h)

end

/-! ## Changes -/

/-- The world after something was done to a meter. -/
def affected (w : World) (i : Nat) (g : Focus) : World :=
  { w with meters := w.meters.set i g.meter, stack := g.stack, log := w.log ++ g.events }

/-- The world after a session has given out a position to a new meter. -/
def created (w : World) (k : Nat) (session : Session) (category : String)
    (operation parent : Option String) (context : Context) : World :=
  let (position, positions) := session.positions.next category operation
  { w with
    sessions := w.sessions.set k { session with positions }
    meters := w.meters ++ [{
      snapshot := w.fresh session position category operation parent context
      session := k }] }

/-- How a world changes on one thread. -/
inductive Change (enabled : Enabled) (w : World) : World → Prop where
  /-- The clock and the metrics are set. -/
  | environment (clock : UInt64) (metrics : Metrics) : Change enabled w { w with clock, metrics }
  /-- Something is done to a meter. -/
  | affect (i : Nat) (m : Meter) (session : Session) (t : Option Transition) (g : Focus)
    (hm : w.meters[i]? = some m) (hsession : w.sessions[m.session]? = some session)
    (h : Focus.Effect (w.surroundings enabled session) ⟨m, w.stack, []⟩ t g) :
    Change enabled w (w.affected i g)
  /-- A meter is created. -/
  | create (k : Nat) (session : Session) (category : String) (operation parent : Option String)
    (context : Context) (hsession : w.sessions[k]? = some session) :
    Change enabled w (w.created k session category operation parent context)

/-- One change after another. -/
abbrev Changes (enabled : Enabled) : World → World → Prop := Relation.ReflTransGen (Change enabled)

/-- Whether an action leaves the running thread. -/
def Action.switchesThread : Action → Bool
  | .enterThread | .leaveThread => true
  | _ => false

section

variable {enabled : Enabled}

theorem create_eq (w : World) (k : Nat) (category : String) (operation parent : Option String)
    (context : Context) :
    (w.sessions[k]? = none ∧ w.create k category operation parent context = w) ∨
      ∃ session, w.sessions[k]? = some session ∧
        w.create k category operation parent context =
          w.created k session category operation parent context := by
  unfold create
  cases h : w.sessions[k]? with
  | none => exact Or.inl ⟨rfl, rfl⟩
  | some session => exact Or.inr ⟨session, rfl, rfl⟩

theorem withMeter_of_getElem? (enabled : Enabled) (w : World) (i : Nat)
    (act : Surroundings → Focus → Focus) {m : Meter} {session : Session}
    (hm : w.meters[i]? = some m) (hsession : w.sessions[m.session]? = some session) :
    w.withMeter enabled i act =
      w.affected i (act (w.surroundings enabled session) ⟨m, w.stack, []⟩) := by
  simp only [withMeter, hm, hsession]
  rfl

/-- What is done to a meter happens if there is such a meter, in a session that there is. -/
theorem withMeter_eq (enabled : Enabled) (w : World) (i : Nat)
    (act : Surroundings → Focus → Focus) :
    w.withMeter enabled i act = w ∨
      ∃ m session, w.meters[i]? = some m ∧ w.sessions[m.session]? = some session ∧
        w.withMeter enabled i act =
          w.affected i (act (w.surroundings enabled session) ⟨m, w.stack, []⟩) := by
  cases hm : w.meters[i]? with
  | none => exact Or.inl (by simp only [withMeter, hm])
  | some m =>
    cases hs : w.sessions[m.session]? with
    | none => exact Or.inl (by simp only [withMeter, hm, hs])
    | some session =>
      exact Or.inr ⟨m, session, rfl, hs, withMeter_of_getElem? enabled w i act hm hs⟩

theorem changes_create (w : World) (k : Nat) (category : String) (operation parent : Option String)
    (context : Context) : Changes enabled w (w.create k category operation parent context) := by
  rcases create_eq w k category operation parent context with ⟨-, h⟩ | ⟨session, hs, h⟩
  · rw [h]
  · rw [h]
    exact .single (.create k session category operation parent context hs)

theorem changes_withMeter (enabled : Enabled) (w : World) (i : Nat)
    {act : Surroundings → Focus → Focus}
    (hact : ∀ around f, ∃ t, Focus.Effect around f t (act around f)) :
    Changes enabled w (w.withMeter enabled i act) := by
  rcases withMeter_eq enabled w i act with h | ⟨m, session, hm, hs, h⟩
  · rw [h]
  · obtain ⟨t, heffect⟩ := hact (w.surroundings enabled session) ⟨m, w.stack, []⟩
    rw [h]
    exact .single (.affect i m session t _ hm hs heffect)

theorem effect_misuseOfPart (name : String) (around : Surroundings) (f : Focus) :
    Focus.Effect around f none (f.report (f.snapshot.misuseOfPart name)) :=
  Focus.effect_report _ (Focus.allReports_misuseOfPart _ name)

theorem exists_effect_perform (around : Surroundings) (f : Focus) (c : Call) :
    ∃ t, Focus.Effect around f t (f.perform around c) := by
  by_cases hc : c = .start
  · subst hc
    exact ⟨_, .start⟩
  · obtain ⟨t, h, -⟩ := Focus.perform_effect around f c hc
    exact ⟨t, h⟩

theorem exists_effect_drop (around : Surroundings) (f : Focus) (unwinding : Bool) :
    ∃ t, Focus.Effect around f t (f.drop around unwinding) := by
  obtain ⟨t, h, -⟩ := Focus.drop_effect around f unwinding
  exact ⟨t, h⟩

/-- An action on one thread is a sequence of changes. -/
theorem changes_act (w : World) (a : Action) (ha : a.switchesThread = false) :
    Changes enabled w (w.act enabled a) := by
  cases a with
  | setClock nanos => exact .single (.environment nanos w.metrics)
  | advance nanos => exact .single (.environment _ w.metrics)
  | setMetrics m => exact .single (.environment w.clock m)
  | create k category operation => exact changes_create w k category operation none .empty
  | createPart i name =>
    have hreport := changes_withMeter enabled w i fun around f =>
      ⟨none, effect_misuseOfPart name around f⟩
    simp only [act, createPart]
    split
    · exact hreport
    · exact hreport.trans (changes_create _ _ _ _ _ _)
  | call i c => exact changes_withMeter enabled w i fun around f => exists_effect_perform around f c
  | drop unwinding i =>
    exact changes_withMeter enabled w i fun around f => exists_effect_drop around f unwinding
  | enterThread | leaveThread => exact absurd ha (by decide)

theorem changes_induction {P : World → Prop} (hchange : ∀ w w', Change enabled w w' → P w → P w')
    {w w' : World} (h : Changes enabled w w') (hw : P w) : P w' := by
  induction h with
  | refl => exact hw
  | tail _ h ih => exact hchange _ _ h ih

/-! ## What holds of every meter -/

/-- Whether nothing has been done in a world yet. -/
structure Untouched (w : World) : Prop where
  /-- There are no meters. -/
  meters : w.meters = []
  /-- No meter is active. -/
  stack : w.stack = {}
  /-- Nothing was logged. -/
  log : w.log = []
  /-- No session has given out a position. -/
  positions : ∀ session ∈ w.sessions, session.positions = {}

theorem Untouched.forall_meters {w : World} (hw : w.Untouched) (P : Meter → Prop) :
    ∀ m ∈ w.meters, P m := by
  intro m hm
  rw [hw.meters] at hm
  exact absurd hm List.not_mem_nil

theorem now_ne_zero (w : World) : w.now ≠ 0 := by
  unfold now
  split
  · decide
  · next h => exact h

theorem act_of_switchesThread (enabled : Enabled) (w : World) (a : Action)
    (ha : a.switchesThread = true) :
    (w.act enabled a).meters = w.meters ∧ (w.act enabled a).sessions = w.sessions := by
  cases a with
  | enterThread => exact ⟨rfl, rfl⟩
  | leaveThread =>
    simp only [act, leaveThread]
    split <;> exact ⟨rfl, rfl⟩
  | _ => simp [Action.switchesThread] at ha

/-- What every change keeps, and what depends on nothing but the meters and the sessions, is kept by
a sequence of actions on any threads. -/
theorem acts_change_induction (enabled : Enabled) {P : World → Prop}
    (hchange : ∀ w w', Change enabled w w' → P w → P w')
    (hswitch : ∀ w w' : World, w'.meters = w.meters → w'.sessions = w.sessions → P w → P w')
    (w : World) (as : List Action) (h : P w) : P (w.acts enabled as) := by
  refine acts_induction enabled ?_ w as h
  intro w a hw
  cases ha : a.switchesThread with
  | false => exact changes_induction hchange (changes_act w a ha) hw
  | true =>
    obtain ⟨hmeters, hsessions⟩ := act_of_switchesThread enabled w a ha
    exact hswitch w _ hmeters hsessions hw

section

variable {P : Meter → Prop}

theorem forall_meters_create {w : World} (k : Nat) (category : String)
    (operation parent : Option String) (context : Context)
    (hfresh : ∀ session position,
      P { snapshot := w.fresh session position category operation parent context, session := k })
    (hw : ∀ m ∈ w.meters, P m) :
    ∀ m ∈ (w.create k category operation parent context).meters, P m := by
  intro m hm
  rcases create_eq w k category operation parent context with ⟨-, h⟩ | ⟨session, -, h⟩
  · rw [h] at hm
    exact hw m hm
  · rw [h] at hm
    rcases List.mem_append.mp hm with hmem | hmem
    · exact hw m hmem
    · rw [List.mem_singleton.mp hmem]
      exact hfresh session _

theorem now_withMeter (w : World) (i : Nat) (act : Surroundings → Focus → Focus) :
    (w.withMeter enabled i act).now = w.now := by
  rcases withMeter_eq enabled w i act with h | ⟨m, session, -, -, h⟩ <;> rw [h]
  rfl

theorem forall_meters_withMeter {w : World} (i : Nat) {act : Surroundings → Focus → Focus}
    (hact : ∀ around f, ∃ t, Focus.Effect around f t (act around f))
    (hchange : ∀ m m', Meter.Change w.now m m' → P m → P m') (hw : ∀ m ∈ w.meters, P m) :
    ∀ m ∈ (w.withMeter enabled i act).meters, P m := by
  intro m' hm'
  rcases withMeter_eq enabled w i act with h | ⟨m, session, hm, -, h⟩
  · rw [h] at hm'
    exact hw m' hm'
  · obtain ⟨t, heffect⟩ := hact (w.surroundings enabled session) ⟨m, w.stack, []⟩
    rw [h] at hm'
    rcases List.mem_or_eq_of_mem_set hm' with hmem | rfl
    · exact hw m' hmem
    · exact hchange m _ heffect.meter_change (hw m (List.mem_of_getElem? hm))

/-- What holds of a new meter and is kept by changes at one time is kept by an action at that
time. -/
theorem forall_meters_act {w : World}
    (hfresh : ∀ (w' : World) session position category operation parent context k,
      w'.now = w.now →
        P { snapshot := w'.fresh session position category operation parent context, session := k })
    (hchange : ∀ m m', Meter.Change w.now m m' → P m → P m') (a : Action)
    (hw : ∀ m ∈ w.meters, P m) : ∀ m ∈ (w.act enabled a).meters, P m := by
  cases a with
  | setClock nanos | advance nanos | setMetrics m | enterThread => exact hw
  | leaveThread =>
    simp only [act, leaveThread]
    split <;> exact hw
  | create k category operation =>
    exact forall_meters_create k category operation none .empty
      (fun session position => hfresh w session position category operation none .empty k rfl) hw
  | createPart i name =>
    -- The report on the name comes first, and the part is made at the same time.
    have hreport : ∀ m ∈ (w.withMeter enabled i fun _ f =>
        f.report (f.snapshot.misuseOfPart name)).meters, P m :=
      forall_meters_withMeter i (fun around f => ⟨none, effect_misuseOfPart name around f⟩) hchange
        hw
    simp only [act, createPart]
    split
    · exact hreport
    · exact forall_meters_create _ _ _ _ _
        (fun session position => hfresh _ session position _ _ _ _ _ (now_withMeter w i _)) hreport
  | call i c =>
    exact forall_meters_withMeter i (fun around f => exists_effect_perform around f c) hchange hw
  | drop unwinding i =>
    exact forall_meters_withMeter i (fun around f => exists_effect_drop around f unwinding) hchange
      hw

/-- What holds of a new meter and is kept by its changes holds of every meter at all times. -/
theorem forall_meters_acts
    (hfresh : ∀ (w : World) session position category operation parent context k,
      P { snapshot := w.fresh session position category operation parent context, session := k })
    (hchange : ∀ now m m', now ≠ 0 → Meter.Change now m m' → P m → P m') (w : World)
    (as : List Action) (hw : ∀ m ∈ w.meters, P m) : ∀ m ∈ (w.acts enabled as).meters, P m := by
  refine acts_induction enabled (P := fun w => ∀ m ∈ w.meters, P m) ?_ w as hw
  intro w a
  apply forall_meters_act
  · intro w' session position category operation parent context k _
    exact hfresh w' session position category operation parent context k
  · intro m m'
    exact hchange w.now m m' w.now_ne_zero

end

/-! ## What an action logs -/

/-- The meter that an action is carried out on. -/
def Action.target? : Action → Option Nat
  | .createPart i _ | .call i _ | .drop _ i => some i
  | _ => none

/-- The events that an action logs. -/
def logged (enabled : Enabled) (w : World) (a : Action) : List Event :=
  (w.act enabled a).log.drop w.log.length

theorem log_create (w : World) (k : Nat) (category : String) (operation parent : Option String)
    (context : Context) : (w.create k category operation parent context).log = w.log := by
  unfold create
  split <;> rfl

/-- An action either logs nothing but reports of misuse, or has its effect on its target and logs
what this effect does. -/
theorem log_act_cases (enabled : Enabled) (w : World) (a : Action) :
    (∃ es, Focus.AllReports es ∧ (w.act enabled a).log = w.log ++ es) ∨
      ∃ i m session t g, a.target? = some i ∧ w.meters[i]? = some m ∧
        w.sessions[m.session]? = some session ∧
        Focus.Effect (w.surroundings enabled session) ⟨m, w.stack, []⟩ t g ∧
        w.act enabled a = w.affected i g := by
  have hquiet (w' : World) (h : w'.log = w.log) :
      ∃ es, Focus.AllReports es ∧ w'.log = w.log ++ es :=
    ⟨[], Focus.allReports_nil, by rw [h, List.append_nil]⟩
  have hmeter (i : Nat) (act : Surroundings → Focus → Focus)
      (hact : ∀ around f, ∃ t, Focus.Effect around f t (act around f)) :
      (∃ es, Focus.AllReports es ∧ (w.withMeter enabled i act).log = w.log ++ es) ∨
        ∃ m session t g, w.meters[i]? = some m ∧ w.sessions[m.session]? = some session ∧
          Focus.Effect (w.surroundings enabled session) ⟨m, w.stack, []⟩ t g ∧
          w.withMeter enabled i act = w.affected i g := by
    rcases withMeter_eq enabled w i act with h | ⟨m, session, hm, hsession, h⟩
    · exact Or.inl (hquiet _ (congrArg log h))
    · obtain ⟨t, heffect⟩ := hact (w.surroundings enabled session) ⟨m, w.stack, []⟩
      exact Or.inr ⟨m, session, t, _, hm, hsession, heffect, h⟩
  cases a with
  | setClock nanos | advance nanos | setMetrics m | enterThread => exact Or.inl (hquiet _ rfl)
  | create k category operation => exact Or.inl (hquiet _ (log_create _ _ _ _ _ _))
  | leaveThread =>
    left
    simp only [act, leaveThread]
    split <;> exact hquiet _ rfl
  | createPart i name =>
    left
    -- The target is affected by a report only, and the creation logs nothing.
    have hreport : ∃ es, Focus.AllReports es ∧ (w.withMeter enabled i fun _ f =>
        f.report (f.snapshot.misuseOfPart name)).log = w.log ++ es := by
      rcases withMeter_eq enabled w i fun _ f => f.report (f.snapshot.misuseOfPart name) with
        h | ⟨m, session, hm, hsession, h⟩
      · exact hquiet _ (congrArg log h)
      · refine ⟨Focus.reports (m.snapshot.misuseOfPart name) m.snapshot,
          Focus.allReports_misuseOfPart _ name, ?_⟩
        rw [h, affected, Focus.report_eq]
        rfl
    simp only [act, createPart]
    split
    · exact hreport
    · rwa [log_create]
  | call i c =>
    rcases hmeter i _ fun around f => exists_effect_perform around f c with
      h | ⟨m, session, t, g, h⟩
    · exact Or.inl h
    · exact Or.inr ⟨i, m, session, t, g, rfl, h⟩
  | drop unwinding i =>
    rcases hmeter i _ fun around f => exists_effect_drop around f unwinding with
      h | ⟨m, session, t, g, h⟩
    · exact Or.inl h
    · exact Or.inr ⟨i, m, session, t, g, rfl, h⟩

/-- The log only grows. -/
theorem log_act (enabled : Enabled) (w : World) (a : Action) :
    (w.act enabled a).log = w.log ++ w.logged enabled a := by
  have hsplit (es : List Event) (h : (w.act enabled a).log = w.log ++ es) :
      (w.act enabled a).log = w.log ++ w.logged enabled a := by
    rw [logged, h, List.drop_left]
  rcases log_act_cases enabled w a with
    ⟨es, -, h⟩ | ⟨i, m, session, t, g, -, -, -, -, h⟩
  · exact hsplit es h
  · exact hsplit g.events (congrArg log h)

theorem log_acts (enabled : Enabled) (w : World) (as : List Action) :
    ∃ es, (w.acts enabled as).log = w.log ++ es := by
  refine acts_induction enabled (P := fun w' => ∃ es, w'.log = w.log ++ es) ?_ w as
    ⟨[], (List.append_nil _).symm⟩
  rintro w' a ⟨es, h⟩
  exact ⟨es ++ w'.logged enabled a, by rw [log_act, h, List.append_assoc]⟩

end

end Metering.World
