import Metering.Proofs.Ownership
import Metering.Proofs.Recount

/-!
# Proofs: a snapshot follows from the history of its meter

The history of a run tells for every meter how it was created and what was done to it since then,
and the clock is set and moved by the history alone. Whatever else happens in the run, the snapshot
of the meter is at every moment what its own deeds have made of the one at its creation.
-/

namespace Metering

/-! ## What was done to a meter -/

/-- The deed of an action on a meter, if it is one. -/
def World.Action.deedOn? (i : Nat) : World.Action → Option Deed
  | .call j c => if j = i then some (.call c) else none
  | .createPart j name => if j = i then some (.part name) else none
  | .drop unwinding j => if j = i then some (.drop unwinding) else none
  | _ => none

/-- What the clock is set to by an action. -/
def World.Action.clock (clock : UInt64) : World.Action → UInt64
  | .setClock nanos => nanos
  | .advance nanos => Word.satAdd clock nanos
  | _ => clock

/-- The clock as it was set, and what was done to a meter. -/
structure Diary where
  /-- The clock as it was set. -/
  clock : UInt64
  /-- What was done to the meter, the last deed first. -/
  deeds : Deeds := []

/-- The clock as meters read it. -/
def Diary.now (diary : Diary) : UInt64 := if diary.clock = 0 then 1 else diary.clock

/-- Takes down an action, and the deed if it is one on the meter. -/
def Diary.note (i : Nat) (diary : Diary) (a : World.Action) : Diary where
  clock := a.clock diary.clock
  deeds :=
    match a.deedOn? i with
    | none => diary.deeds
    | some d => (diary.now, d) :: diary.deeds

/-- The diary of a meter where the clock shows a time at first. -/
def diaryOf (i : Nat) (clock : UInt64) (as : List World.Action) : Diary :=
  as.foldl (Diary.note i) { clock }

theorem diaryOf_concat (i : Nat) (clock : UInt64) (as : List World.Action) (a : World.Action) :
    diaryOf i clock (as ++ [a]) = (diaryOf i clock as).note i a := by
  simp only [diaryOf, List.foldl_append, List.foldl_cons, List.foldl_nil]

theorem Diary.now_ne_zero (diary : Diary) : diary.now ≠ 0 := by
  unfold now
  split
  · decide
  · next h => exact h

theorem timed_diaryOf (i : Nat) (clock : UInt64) (as : List World.Action) :
    (diaryOf i clock as).deeds.Timed := by
  induction as using List.reverseRecOn with
  | nil => exact fun _ h => absurd h List.not_mem_nil
  | append_singleton as a ih =>
    rw [diaryOf_concat, Diary.note]
    dsimp only
    split
    · exact ih
    · exact List.forall_mem_cons.mpr ⟨Diary.now_ne_zero _, ih⟩

namespace World

theorem eq_on_of_deedOn? {a : Action} {i : Nat} {d : Deed} (h : a.deedOn? i = some d) :
    a = d.on i := by
  cases a with
  | call j c | createPart j name | drop unwinding j =>
    simp only [Action.deedOn?] at h
    split at h
    · next hji =>
      obtain rfl := Option.some.inj h
      rw [hji]
      rfl
    · cases h
  | _ => cases h

theorem deedOn?_on (i : Nat) (d : Deed) : (d.on i).deedOn? i = some d := by
  cases d <;> exact if_pos rfl

theorem target?_on (i : Nat) (d : Deed) : (d.on i).target? = some i := by
  cases d <;> rfl

theorem deedOn?_eq_none_iff {a : Action} {i : Nat} : a.deedOn? i = none ↔ a.target? ≠ some i := by
  cases a with
  | call j c | createPart j name | drop unwinding j => simp [Action.deedOn?, Action.target?]
  | _ => simp [Action.deedOn?, Action.target?]

theorem deeds_concat_other {as : List Action} {a : Action} {i : Nat} (clock : UInt64)
    (h : a.deedOn? i = none) :
    (diaryOf i clock (as ++ [a])).deeds = (diaryOf i clock as).deeds := by
  rw [diaryOf_concat, Diary.note, h]

theorem deeds_concat_on (as : List Action) (i : Nat) (d : Deed) (clock : UInt64) :
    (diaryOf i clock (as ++ [d.on i])).deeds =
      ((diaryOf i clock as).now, d) :: (diaryOf i clock as).deeds := by
  rw [diaryOf_concat, Diary.note, deedOn?_on]

variable {enabled : Enabled}

/-- In orderly actions every one is on a meter that is live, or not on the meter at all. -/
@[elab_as_elim]
theorem Orderly.induction_on {w : World} {motive : List Action → Prop} {as : List Action} (i : Nat)
    (h : Orderly enabled w as) (nil : motive [])
    (other : ∀ as a, Orderly enabled w (as ++ [a]) → a.deedOn? i = none → motive as →
      motive (as ++ [a]))
    (deed : ∀ as (d : Deed), Orderly enabled w (as ++ [d.on i]) → IsLive enabled w as i →
      motive as → motive (as ++ [d.on i])) : motive as := by
  induction h with
  | nil => exact nil
  | @concat as a has ha ih =>
    cases hd : a.deedOn? i with
    | none => exact other as a (has.concat ha) hd ih
    | some d =>
      obtain rfl := eq_on_of_deedOn? hd
      exact deed as d (has.concat ha) (ha i (target?_on i d)) ih

/-! ## The clock and the configurations -/

theorem clock_act (w : World) (a : Action) : (w.act enabled a).clock = a.clock w.clock := by
  have hmeter (i : Nat) (act : Surroundings → Focus → Focus) :
      (w.withMeter enabled i act).clock = w.clock := by
    rcases withMeter_eq enabled w i act with h | ⟨m, session, -, -, h⟩ <;> rw [h]
    rfl
  have hcreate (w : World) (k : Nat) (category : String) (operation parent : Option String)
      (context : Context) : (w.create k category operation parent context).clock = w.clock := by
    unfold create
    split <;> rfl
  cases a with
  | setClock nanos | advance nanos | setMetrics m | enterThread => rfl
  | create k category operation => exact hcreate w k category operation none .empty
  | createPart i name =>
    simp only [act, createPart]
    split
    · exact hmeter i _
    · rw [hcreate]
      exact hmeter i _
  | call i c | drop unwinding i => exact hmeter i _
  | leaveThread =>
    simp only [act, leaveThread]
    split <;> rfl

theorem now_diaryOf (enabled : Enabled) (i : Nat) (w : World) (as : List Action) :
    (diaryOf i w.clock as).now = (w.acts enabled as).now := by
  have hclock : (diaryOf i w.clock as).clock = (w.acts enabled as).clock := by
    induction as using List.reverseRecOn with
    | nil => rfl
    | append_singleton as a ih => rw [diaryOf_concat, acts_concat, clock_act, ← ih]; rfl
  rw [Diary.now, hclock, World.now]

/-- The configuration of a session. -/
def config? (w : World) (k : Nat) : Option Config := w.sessions[k]?.map Session.config

theorem config?_acts (enabled : Enabled) (w : World) (as : List Action) (k : Nat) :
    (w.acts enabled as).config? k = w.config? k := by
  refine acts_change_induction enabled (P := fun w' => w'.config? k = w.config? k) ?_ ?_ w as rfl
  · intro w' w'' h hw
    cases h with
    | environment clock metrics => exact hw
    | affect i m session t g hm hsession heffect => exact hw
    | create k' session category operation parent context hsession =>
      rw [← hw, config?, config?, created]
      by_cases hk : k' = k
      · subst hk
        rw [List.getElem?_set_self (List.getElem?_eq_some_iff.mp hsession).1, hsession]
        rfl
      · rw [List.getElem?_set_ne hk]
  · intro w' w'' _ hsessions hw
    rw [config?, hsessions]
    exact hw

theorem config?_eq_some_iff (enabled : Enabled) (w : World) (as : List Action) (k : Nat)
    {config : Config} : w.config? k = some config ↔
      ∃ session, (w.acts enabled as).sessions[k]? = some session ∧ session.config = config := by
  rw [← config?_acts enabled w as, config?, Option.map_eq_some_iff]

/-! ## What an action does to a meter -/

theorem getElem?_create {w : World} {k i : Nat} (category : String)
    (operation parent : Option String) (context : Context) (hi : i < w.meters.length) :
    (w.create k category operation parent context).meters[i]? = w.meters[i]? := by
  rcases create_eq w k category operation parent context with ⟨-, h⟩ | ⟨session, -, h⟩
  · rw [h]
  · rw [h, created, List.getElem?_append_left hi]

theorem getElem?_withMeter_ne {w : World} {i j : Nat} (act : Surroundings → Focus → Focus)
    (hij : i ≠ j) : (w.withMeter enabled i act).meters[j]? = w.meters[j]? := by
  rcases withMeter_eq enabled w i act with h | ⟨m, session, -, -, h⟩
  · rw [h]
  · rw [h, affected, List.getElem?_set_ne hij]

theorem getElem?_act_of_not_target (enabled : Enabled) {w : World} {a : Action} {i : Nat}
    (ha : a.deedOn? i = none) (hi : i < w.meters.length) :
    (w.act enabled a).meters[i]? = w.meters[i]? := by
  rw [deedOn?_eq_none_iff] at ha
  cases a with
  | setClock nanos | advance nanos | setMetrics m | enterThread => rfl
  | create k category operation => exact getElem?_create _ _ _ _ hi
  | createPart j name =>
    have hji : j ≠ i := fun h => ha (congrArg some h)
    simp only [act, createPart]
    split
    · exact getElem?_withMeter_ne _ hji
    · rw [getElem?_create]
      · exact getElem?_withMeter_ne _ hji
      · rwa [length_withMeter]
  | call j c | drop unwinding j => exact getElem?_withMeter_ne _ fun h => ha (congrArg some h)
  | leaveThread =>
    simp only [act, leaveThread]
    split <;> rfl

section

variable {w : World} {i : Nat} {m : Meter} {session : Session} (hm : w.meters[i]? = some m)
  (hsession : w.sessions[m.session]? = some session)

include hm hsession

/-- A part is created after the report on its name. -/
theorem createPart_eq (name : String) :
    w.createPart enabled i name =
      (w.affected i (Deed.perform (w.surroundings enabled session) ⟨m, w.stack, []⟩
        (.part name))).create m.session m.snapshot.category
          (some (partOperation m.snapshot name)) (some m.snapshot.fullId) m.snapshot.context := by
  have hlt : i < w.meters.length := (List.getElem?_eq_some_iff.mp hm).1
  have hreported : (w.withMeter enabled i fun _ f => f.report (f.snapshot.misuseOfPart name)) =
      w.affected i (Deed.perform (w.surroundings enabled session) ⟨m, w.stack, []⟩
        (.part name)) := withMeter_of_getElem? _ _ _ _ hm hsession
  have hsame : (w.affected i (Deed.perform (w.surroundings enabled session) ⟨m, w.stack, []⟩
      (.part name))).meters[i]? = some m := by
    rw [affected, List.getElem?_set_self hlt, Deed.perform, Focus.meter_report]
  simp only [createPart, hreported, hsame]

/-- A deed on a meter does to it and logs what it does by itself. -/
theorem act_on (enabled : Enabled) (d : Deed) :
    ∃ g, Focus.Does (w.surroundings enabled session) ⟨m, w.stack, []⟩ d g ∧
      (w.act enabled (d.on i)).meters[i]? = some g.meter ∧
      (w.act enabled (d.on i)).log = w.log ++ g.events := by
  have hlt : i < w.meters.length := (List.getElem?_eq_some_iff.mp hm).1
  have haffected (g : Focus) : (w.affected i g).meters[i]? = some g.meter :=
    List.getElem?_set_self hlt
  refine ⟨d.perform (w.surroundings enabled session) ⟨m, w.stack, []⟩, Focus.does_deed d, ?_⟩
  cases d with
  | call c =>
    rw [Deed.on, act, call, withMeter_of_getElem? _ _ _ _ hm hsession]
    exact ⟨haffected _, rfl⟩
  | drop unwinding =>
    rw [Deed.on, act, drop, withMeter_of_getElem? _ _ _ _ hm hsession]
    exact ⟨haffected _, rfl⟩
  | part name =>
    rw [Deed.on, act, createPart_eq hm hsession]
    constructor
    · rw [getElem?_create, haffected]
      rwa [affected, List.length_set]
    · rw [log_create, affected]

end

/-! ## Births -/

/-- Whether an action makes a meter that is the next one. -/
inductive Newborn (w : World) : Action → Meter → Prop where
  /-- A meter is made for a category, or for an operation in it. -/
  | create {k : Nat} {session : Session} (category : String) (operation : Option String)
    (hsession : w.sessions[k]? = some session) :
    Newborn w (.create k category operation) {
      session := k
      snapshot := {
        session := some session.id
        category := category
        operation := operation
        parent := w.stack.current
        position := (session.positions.next category operation).1
        createTime := w.now
        lastTime := w.now } }
  /-- A meter is made for a part of the operation of another meter and copies its context. -/
  | part {j : Nat} {m : Meter} {session : Session} (name : String) (hm : w.meters[j]? = some m)
    (hsession : w.sessions[m.session]? = some session) :
    Newborn w (.createPart j name) {
      session := m.session
      snapshot := {
        session := some session.id
        category := m.snapshot.category
        operation := some (partOperation m.snapshot name)
        parent := some m.snapshot.fullId
        position := (session.positions.next m.snapshot.category
          (some (partOperation m.snapshot name))).1
        createTime := w.now
        lastTime := w.now
        context := m.snapshot.context } }

theorem getElem?_created (w : World) (k : Nat) (session : Session) (category : String)
    (operation parent : Option String) (context : Context) :
    (w.created k session category operation parent context).meters[w.meters.length]? = some {
      snapshot := w.fresh session (session.positions.next category operation).1 category operation
        parent context
      session := k } := List.getElem?_concat_length

theorem newborn_of_act {w : World} {a : Action} {m₀ : Meter}
    (hm₀ : (w.act enabled a).meters[w.meters.length]? = some m₀) : w.Newborn a m₀ := by
  have hsame {w' : World} (h : w'.meters.length = w.meters.length) :
      ¬ w'.meters[w.meters.length]? = some m₀ := by
    rw [← h, List.getElem?_length]
    nofun
  cases a with
  | create k category operation =>
    rw [act] at hm₀
    rcases create_eq w k category operation none .empty with ⟨-, h⟩ | ⟨session, hsession, h⟩
    · rw [h] at hm₀
      exact absurd hm₀ (hsame rfl)
    · rw [h, getElem?_created] at hm₀
      obtain rfl := Option.some.inj hm₀
      exact .create category operation hsession
  | createPart j name =>
    rw [act] at hm₀
    cases hm : w.meters[j]? with
    | none =>
      simp only [createPart, withMeter, hm] at hm₀
      exact absurd hm₀ (hsame rfl)
    | some m =>
      cases hsession : w.sessions[m.session]? with
      | none =>
        simp only [createPart, withMeter, create, hm, hsession] at hm₀
        exact absurd hm₀ (hsame rfl)
      | some session =>
        rw [createPart_eq hm hsession] at hm₀
        generalize Deed.perform (w.surroundings enabled session) ⟨m, w.stack, []⟩ (.part name) = g
          at hm₀
        rcases create_eq (w.affected j g) m.session m.snapshot.category
            (some (partOperation m.snapshot name)) (some m.snapshot.fullId) m.snapshot.context with
          ⟨hnone, -⟩ | ⟨session', hsession', h⟩
        · cases hsession.symm.trans hnone
        · obtain rfl := Option.some.inj (hsession.symm.trans hsession')
          have hlength : w.meters.length = (w.affected j g).meters.length := by
            rw [affected, List.length_set]
          rw [h, hlength, getElem?_created] at hm₀
          obtain rfl := Option.some.inj hm₀
          exact .part name hm hsession
  | _ => exact absurd hm₀ (hsame (length_act w _ rfl))

theorem exists_newborn {w : World} (hw : w.meters = []) {as : List Action} {i : Nat}
    (hi : i < (w.acts enabled as).meters.length) :
    ∃ before a after m₀, as = before ++ a :: after ∧ (w.acts enabled before).meters.length = i ∧
      ((w.acts enabled before).act enabled a).meters[i]? = some m₀ ∧
      (w.acts enabled before).Newborn a m₀ := by
  induction as using List.reverseRecOn with
  | nil =>
    have hnone : (w.acts enabled []).meters = [] := hw
    rw [hnone] at hi
    cases hi
  | append_singleton as a ih =>
    by_cases hold : i < (w.acts enabled as).meters.length
    · obtain ⟨before, b, after, m₀, rfl, hbirth⟩ := ih hold
      exact ⟨before, b, after ++ [a], m₀, by simp, hbirth⟩
    -- The meters before are fewer, so the last action made it, and as the next one.
    · rw [acts_concat] at hi
      have hlength : (w.acts enabled as).meters.length = i := by
        rcases length_act_cases enabled (w.acts enabled as) a with h | h <;> omega
      have hm₀ := List.getElem?_eq_getElem hi
      subst hlength
      exact ⟨as, a, [], _, rfl, rfl, hm₀, newborn_of_act hm₀⟩

/-! ## A life -/

theorem Newborn.follows {w : World} {a : Action} {m₀ : Meter} (h : w.Newborn a m₀)
    (period : Duration) : m₀.Follows m₀ period [] := by
  cases h with
  | create category operation hsession => constructor <;> rfl
  | part name hm hsession => constructor <;> rfl

theorem Newborn.exists_config {w : World} {a : Action} {m₀ : Meter} (h : w.Newborn a m₀) :
    ∃ config, w.config? m₀.session = some config := by
  cases h with
  | create category operation hsession => exact ⟨_, congrArg (Option.map Session.config) hsession⟩
  | part name hm hsession => exact ⟨_, congrArg (Option.map Session.config) hsession⟩

theorem deeds_diaryOf_eq_nil {i : Nat} {clock : UInt64} {as : List Action}
    (h : ∀ a ∈ as, a.deedOn? i = none) : (diaryOf i clock as).deeds = [] := by
  induction as using List.reverseRecOn with
  | nil => rfl
  | append_singleton as a ih =>
    rw [deeds_concat_other clock (h a (by simp))]
    exact ih fun b hb => h b (List.mem_append_left _ hb)

/-- Nothing is done to a meter before it is there. -/
theorem Orderly.deedOn?_eq_none {w : World} {as : List Action} {a : Action}
    (h : Orderly enabled w (as ++ [a])) {i : Nat} (hi : (w.acts enabled as).meters.length ≤ i) :
    ∀ b ∈ as ++ [a], b.deedOn? i = none := by
  intro b hb
  rw [deedOn?_eq_none_iff]
  intro htarget
  obtain ⟨before, after, hsplit⟩ := List.append_of_mem hb
  rw [hsplit] at h
  have hlive := (h.isLive htarget).1
  -- What was there when the action came is still there before the last one.
  have hle : (w.acts enabled before).meters.length ≤ (w.acts enabled as).meters.length := by
    rcases List.eq_nil_or_concat after with rfl | ⟨after, c, rfl⟩
    · obtain ⟨rfl, -⟩ := List.append_inj' hsplit rfl
      exact le_rfl
    · rw [List.concat_eq_append, ← List.cons_append, ← List.append_assoc] at hsplit
      obtain ⟨rfl, -⟩ := List.append_inj' hsplit rfl
      rw [acts_append]
      exact length_le_acts _ _ _
  omega

theorem exists_follows_act {w₀ : World} {as : List Action} {a : Action} {i : Nat} {m₀ m : Meter}
    {config : Config} (hconfig : w₀.config? m₀.session = some config)
    (hm : (w₀.acts enabled as).meters[i]? = some m)
    (h : m.Follows m₀ config.progressPeriod (diaryOf i w₀.clock as).deeds) :
    ∃ m', (w₀.acts enabled (as ++ [a])).meters[i]? = some m' ∧
      m'.Follows m₀ config.progressPeriod (diaryOf i w₀.clock (as ++ [a])).deeds := by
  rw [acts_concat]
  cases hdeed : a.deedOn? i with
  | none =>
    have hsame := getElem?_act_of_not_target enabled hdeed
      (List.getElem?_eq_some_iff.mp hm).1
    rw [deeds_concat_other _ hdeed]
    exact ⟨m, hsame.trans hm, h⟩
  | some d =>
    obtain rfl := eq_on_of_deedOn? hdeed
    rw [← h.home, config?_eq_some_iff enabled w₀ as] at hconfig
    obtain ⟨session, hsession, rfl⟩ := hconfig
    obtain ⟨g, ⟨⟨metrics, hmeter⟩, -⟩, hg, -⟩ := act_on hm hsession enabled d
    refine ⟨g.meter, hg, ?_⟩
    rw [hmeter, deeds_concat_on, now_diaryOf enabled]
    exact (h.deed (timed_diaryOf i w₀.clock as) ((w₀.acts enabled as).surroundings enabled session)
      rfl d).withMetrics metrics

/-- From its birth on, a meter follows the deeds on it. -/
theorem Newborn.exists_follows {w : World} {before after : List Action} {a : Action} {m₀ : Meter}
    {config : Config} (h : (w.acts enabled before).Newborn a m₀)
    (hm₀ : ((w.acts enabled before).act enabled a).meters[(w.acts enabled before).meters.length]? =
      some m₀)
    (hconfig : w.config? m₀.session = some config)
    (horderly : Orderly enabled w (before ++ a :: after)) :
    ∃ m, (w.acts enabled (before ++ a :: after)).meters[(w.acts enabled before).meters.length]? =
        some m ∧
      m.Follows m₀ config.progressPeriod
        (diaryOf (w.acts enabled before).meters.length w.clock (before ++ a :: after)).deeds := by
  have hsplit (after : List Action) : before ++ a :: after = before ++ [a] ++ after := by simp
  rw [hsplit] at horderly ⊢
  -- No action up to the birth is on the meter, so the deeds on it begin after that.
  have hnone : (diaryOf (w.acts enabled before).meters.length w.clock (before ++ [a])).deeds = [] :=
    deeds_diaryOf_eq_nil ((horderly.of_append after).deedOn?_eq_none le_rfl)
  clear horderly
  induction after using List.reverseRecOn with
  | nil =>
    rw [List.append_nil, acts_concat, hnone]
    exact ⟨m₀, hm₀, h.follows _⟩
  | append_singleton after b ih =>
    obtain ⟨m, hm, hfollows⟩ := ih
    rw [← List.append_assoc]
    exact exists_follows_act hconfig hm hfollows

/-- At the end of orderly actions every meter follows the deeds on it. -/
theorem Orderly.exists_follows {w : World} (hw : w.Untouched) {as : List Action}
    (h : Orderly enabled w as) {i : Nat} {m : Meter}
    (hm : (w.acts enabled as).meters[i]? = some m) :
    ∃ m₀ session, (w.acts enabled as).sessions[m.session]? = some session ∧
      m.Follows m₀ session.config.progressPeriod (diaryOf i w.clock as).deeds := by
  have hi := (List.getElem?_eq_some_iff.mp hm).1
  obtain ⟨before, a, after, m₀, rfl, rfl, hm₀, hborn⟩ := exists_newborn hw.meters hi
  obtain ⟨config, hconfig⟩ := hborn.exists_config
  rw [config?_acts] at hconfig
  obtain ⟨m', hm', hfollows⟩ := hborn.exists_follows hm₀ hconfig h
  obtain rfl := Option.some.inj (hm.symm.trans hm')
  rw [← hfollows.home, config?_eq_some_iff enabled w (before ++ a :: after)] at hconfig
  obtain ⟨session, hsession, rfl⟩ := hconfig
  exact ⟨m₀, session, hsession, hfollows⟩

end World

open World

/-- What the first `k` actions in the run of a script do to a meter. -/
def deedsAt {α : Type} (l : Logger) (steps : List (Step α)) (w : World) (i k : Nat) : Deeds :=
  (diaryOf i w.clock (historyAt l steps w k)).deeds

/-- Every meter of a script follows its own history: an action has created it as the next one, in a
session that keeps its configuration, and at every later moment it is what the deeds on it have made
of the new meter. -/
theorem snapshot_follows_history {α : Type} (l : Logger) (steps : List (Step α)) (w : World)
    (hw : w.Untouched) (i : Nat) (hi : i < (runScript l steps w).1.world.meters.length) :
    ∃ b a m₀ config, (runScript l steps w).1.history[b]? = some a ∧
      (worldAt l steps w b).meters.length = i ∧ (worldAt l steps w b).Newborn a m₀ ∧
      (worldAt l steps w (b + 1)).meters[i]? = some m₀ ∧
      w.config? m₀.session = some config ∧
      ∀ k > b, ∃ m, (worldAt l steps w k).meters[i]? = some m ∧
        m.Follows m₀ config.progressPeriod (deedsAt l steps w i k) := by
  rw [world_runScript] at hi
  obtain ⟨before, a, after, m₀, hhistory, rfl, hm₀, hborn⟩ := exists_newborn hw.meters hi
  have htake (n : Nat) : historyAt l steps w (before.length + 1 + n) =
      before ++ a :: after.take n := by
    rw [historyAt, hhistory, Nat.add_assoc, Nat.add_comm 1 n, List.take_length_add_append,
      List.take_succ_cons]
  have hbefore : historyAt l steps w before.length = before := by
    rw [historyAt, hhistory, List.take_left]
  have hworld : worldAt l steps w before.length = w.acts l.enabled before := by
    rw [worldAt, hbefore]
  have ha : (runScript l steps w).1.history[before.length]? = some a := by
    rw [hhistory, List.getElem?_append_right (Nat.le_refl _), Nat.sub_self]
    rfl
  obtain ⟨config, hconfig⟩ := hborn.exists_config
  rw [config?_acts] at hconfig
  refine ⟨before.length, a, m₀, config, ha, congrArg _ (congrArg _ hworld), ?_, ?_, hconfig, ?_⟩
  · rw [hworld]
    exact hborn
  · rw [worldAt_succ l steps w ha, hworld]
    exact hm₀
  · intro k hk
    obtain ⟨n, rfl⟩ := Nat.exists_eq_add_of_lt hk
    have horderly := orderly_historyAt l steps hw (before.length + 1 + n)
    rw [htake] at horderly
    obtain ⟨m, hm⟩ := hborn.exists_follows hm₀ hconfig horderly
    refine ⟨m, ?_⟩
    rw [worldAt, deedsAt, Nat.add_right_comm, htake]
    exact hm

/-- A success takes the path that was set before it, and counting goes on after it. -/
theorem snapshot_follows_history_path :
    ∃ m, (worldAt Logger.recorder ([.create "m" "c" none, .call "m" (.setPath "p"),
          .call "m" .start, .call "m" (.incrementBy 5), .call "m" .ok, .call "m" (.setPath "q"),
          .call "m" (.incrementTo 9)] : List (Step Unit))
          { sessions := [{ id := "s" }] } 8).meters[0]? = some m ∧
      m.snapshot.outcome = .ok (some "p") ∧ m.snapshot.iteration.toNat = 9 := by
  obtain ⟨b, a, m₀, config, ha, -, -, -, -, hfollows⟩ := snapshot_follows_history Logger.recorder
    ([.create "m" "c" none, .call "m" (.setPath "p"), .call "m" .start,
      .call "m" (.incrementBy 5), .call "m" .ok, .call "m" (.setPath "q"),
      .call "m" (.incrementTo 9)] : List (Step Unit)) { sessions := [{ id := "s" }] }
    ⟨rfl, rfl, rfl, by simp⟩ 0 (by decide +kernel)
  obtain ⟨m, hm, h⟩ := hfollows 8 (List.getElem?_eq_some_iff.mp ha).1
  exact ⟨m, hm, h.outcome.trans (by decide +kernel), h.iteration.trans (by decide +kernel)⟩

end Metering
