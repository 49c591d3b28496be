import Metering.Proofs.OwnHistory

/-!
# Proofs: sessions do not interfere

Meters of several sessions share the clock, the metrics and the active meters of their thread. Here
a run is compared with the one in which nothing is done in some of the sessions. The active meters
then differ, but they influence nothing except which parent a meter is created with, and the parent
influences nothing except the text of the data. So the meters of the other sessions are the same in
both runs and log the same events, up to the parents that were taken from the active meters.
-/

namespace Metering

/-! ## Another parent -/

/-- The snapshot with another parent. -/
def Snapshot.withParent (s : Snapshot) (parent : Option String) : Snapshot := { s with parent }

/-- The meter with another parent. -/
def Meter.withParent (m : Meter) (parent : Option String) : Meter :=
  { m with snapshot := m.snapshot.withParent parent }

/-- Whether two events are the same, or are the data of the same transition in snapshots that differ
in nothing but the parent. -/
inductive Event.SameButParent : Event → Event → Prop where
  /-- They are the same. -/
  | same (e : Event) : SameButParent e e
  /-- The parents in their snapshots may differ. -/
  | data (around : Surroundings) (t : Transition) (s : Snapshot) (parent : Option String) :
    SameButParent (Focus.dataEvent around t s) (Focus.dataEvent around t (s.withParent parent))

section

variable (around : Surroundings) (m : Meter) (s : Snapshot) (parent : Option String) (d : Deed)

theorem Meter.withParent_parent : m.withParent m.snapshot.parent = m := rfl

theorem Deed.change_withParent :
    d.change around (m.withParent parent) = (d.change around m).withParent parent := by
  have houtcome : (m.withParent parent).outcome? d = m.outcome? d := rfl
  have hadjust (a : Adjustment) : (m.withParent parent).adjust a = (m.adjust a).withParent parent :=
    rfl
  unfold change
  rw [houtcome]
  cases m.outcome? d with
  | some outcome => rfl
  | none =>
    cases d with
    | part name | drop unwinding => rfl
    | call c =>
      cases c with
      | progress =>
        have hreports : (m.withParent parent).reportsProgress around = m.reportsProgress around :=
          rfl
        simp only [hreports]
        split <;> rfl
      | start => rfl
      | _ => exact hadjust _

theorem Deed.transition?_withParent :
    d.transition? around (m.withParent parent) = d.transition? around m := rfl

theorem Deed.metrics_withParent :
    d.metrics around (m.withParent parent) = d.metrics around m := rfl

/-- A report names the meter, and not its parent. -/
theorem Focus.reports_withParent :
    reports (d.misuse (s.withParent parent)) (s.withParent parent) = reports (d.misuse s) s := by
  have hmisuse : d.misuse (s.withParent parent) = d.misuse s := by
    cases d with
    | call c => cases c <;> rfl
    | part name | drop unwinding => rfl
  rw [hmisuse]
  cases d.misuse s <;> rfl

/-- The readable message does not show the parent. -/
theorem Focus.loggedEvents_withParent (t : Option Transition) :
    List.Forall₂ Event.SameButParent (loggedEvents around t s)
      (loggedEvents around t (s.withParent parent)) := by
  cases t with
  | none => exact .nil
  | some t =>
    have hmessage : wantsMessage around t (s.withParent parent) = wantsMessage around t s := rfl
    have hdata : wantsData around (s.withParent parent) = wantsData around s := rfl
    simp only [loggedEvents, transitionEvents, hmessage, hdata]
    apply List.rel_append
    · split
      · exact .cons (.same _) .nil
      · exact .nil
    · split
      · exact .cons (.data around t s parent) .nil
      · exact .nil

end

namespace Focus

variable {around : Surroundings} {d : Deed} {m : Meter} {parent : Option String}

/-- A deed does the same to a meter with another parent, whatever meters are active. -/
theorem perform_withParent (stack stack' : ActiveStack) :
    (d.perform around ⟨m.withParent parent, stack', []⟩).meter =
      (d.perform around ⟨m, stack, []⟩).meter.withParent parent := by
  rw [(does_deed d).meter_eq, (does_deed d).meter_eq, Deed.change_withParent,
    Deed.metrics_withParent]
  rfl

theorem parent_perform (stack : ActiveStack) :
    (d.perform around ⟨m, stack, []⟩).meter.snapshot.parent = m.snapshot.parent := by
  have h := @perform_withParent around d m m.snapshot.parent stack stack
  rw [Meter.withParent_parent] at h
  rw [h]
  rfl

theorem session_perform (stack : ActiveStack) :
    (d.perform around ⟨m, stack, []⟩).meter.session = m.session := by
  rw [(does_deed d).meter_eq]
  exact Deed.session_change around m d

theorem events_perform_withParent (stack stack' : ActiveStack) :
    List.Forall₂ Event.SameButParent (d.perform around ⟨m, stack, []⟩).events
      (d.perform around ⟨m.withParent parent, stack', []⟩).events := by
  have hsnapshot : (d.perform around ⟨m.withParent parent, stack', []⟩).snapshot =
      (d.perform around ⟨m, stack, []⟩).snapshot.withParent parent :=
    congrArg Meter.snapshot (perform_withParent stack stack')
  rw [(does_deed d).events, (does_deed d).events, hsnapshot]
  simp only [snapshot, Deed.transition?_withParent]
  apply List.rel_append
  · have hreports : reports (d.misuse (m.withParent parent).snapshot)
        (m.withParent parent).snapshot = reports (d.misuse m.snapshot) m.snapshot :=
      reports_withParent m.snapshot parent d
    rw [hreports]
    exact List.forall₂_same.mpr fun e _ => .same e
  · exact loggedEvents_withParent around _ parent _

/-- What a deed logs does not depend on the active meters. -/
theorem events_perform (stack stack' : ActiveStack) :
    (d.perform around ⟨m, stack', []⟩).events = (d.perform around ⟨m, stack, []⟩).events := by
  have hsnapshot : (d.perform around ⟨m, stack', []⟩).snapshot =
      (d.perform around ⟨m, stack, []⟩).snapshot := by
    rw [snapshot, (does_deed d).meter_eq, snapshot, (does_deed d).meter_eq]
  rw [(does_deed d).events, (does_deed d).events, hsnapshot]
  rfl

end Focus

namespace World

/-! ## Leaving sessions out -/

/-- The sessions that the meters come from. -/
def homes (w : World) : List Nat := w.meters.map Meter.session

/-- The number of a meter where there are no meters but those of some sessions. -/
def numberAmong (kept : Nat → Bool) (w : World) (i : Nat) : Nat := (w.homes.take i).countP kept

/-- Whether an action is not one on a meter of the sessions that are left out. -/
def keeps (kept : Nat → Bool) (w : World) : Action → Bool
  | .create k _ _ => kept k
  | .createPart i _ | .call i _ | .drop _ i => w.homes[i]?.all kept
  | _ => true

/-- An action where there are no meters but those of some sessions. -/
def renumber (kept : Nat → Bool) (w : World) : Action → Action
  | .createPart i name => .createPart (w.numberAmong kept i) name
  | .call i c => .call (w.numberAmong kept i) c
  | .drop unwinding i => .drop unwinding (w.numberAmong kept i)
  | a => a

/-- What is left of an action. -/
def keptOf (kept : Nat → Bool) (w : World) (a : Action) : List Action :=
  if w.keeps kept a then [w.renumber kept a] else []

/-- What is left of a sequence of actions if all creations, calls and drops of the meters of the
other sessions are left out. -/
def thin (enabled : Enabled) (kept : Nat → Bool) : World → List Action → List Action
  | _, [] => []
  | w, a :: as => w.keptOf kept a ++ thin enabled kept (w.act enabled a) as

/-- The meter that an action makes for a part of the operation of another, if it makes one. -/
def newPart (enabled : Enabled) (w : World) (a : Action) : List Nat :=
  match a with
  | .createPart .. =>
    if w.meters.length < (w.act enabled a).meters.length then [w.meters.length] else []
  | _ => []

/-- The meters that a sequence of actions makes for parts of the operations of others. -/
def parts (enabled : Enabled) : World → List Action → List Nat
  | _, [] => []
  | w, a :: as => w.newPart enabled a ++ parts enabled (w.act enabled a) as

section

variable {enabled : Enabled} {kept : Nat → Bool} {w : World}

theorem thin_concat (as : List Action) (a : Action) :
    w.thin enabled kept (as ++ [a]) =
      w.thin enabled kept as ++ (w.acts enabled as).keptOf kept a := by
  induction as generalizing w with
  | nil => exact List.append_nil _
  | cons b as ih =>
    rw [List.cons_append, thin, ih, thin, List.append_assoc]
    rfl

theorem parts_concat (as : List Action) (a : Action) :
    w.parts enabled (as ++ [a]) =
      w.parts enabled as ++ (w.acts enabled as).newPart enabled a := by
  induction as generalizing w with
  | nil => exact List.append_nil _
  | cons b as ih =>
    rw [List.cons_append, parts, ih, parts, List.append_assoc]
    rfl

/-! ## Numbers -/

theorem getElem?_homes {i : Nat} {m : Meter} (hm : w.meters[i]? = some m) :
    w.homes[i]? = some m.session := by
  rw [homes, List.getElem?_map, hm]
  rfl

theorem homes_affected {i : Nat} {m : Meter} {g : Focus} (hm : w.meters[i]? = some m)
    (hg : g.meter.session = m.session) : (w.affected i g).homes = w.homes := by
  rw [homes, affected, List.map_set, hg]
  exact set_eq_self (getElem?_homes hm)

theorem length_homes : w.homes.length = w.meters.length := List.length_map _

theorem numberAmong_lt_of_lt {i j : Nat} {m : Meter} (hm : w.meters[i]? = some m)
    (hkept : kept m.session = true) (hij : i < j) :
    w.numberAmong kept i < w.numberAmong kept j := by
  have hsucc : w.numberAmong kept (i + 1) = w.numberAmong kept i + 1 := by
    rw [numberAmong, List.take_add_one, getElem?_homes hm, List.countP_append]
    simp [hkept, numberAmong]
  have hle : w.numberAmong kept (i + 1) ≤ w.numberAmong kept j :=
    (List.take_sublist_take_left hij).countP_le
  omega

theorem numberAmong_ne {i j : Nat} {m m' : Meter} (hm : w.meters[i]? = some m)
    (hkept : kept m.session = true) (hm' : w.meters[j]? = some m')
    (hkept' : kept m'.session = true) (hij : i ≠ j) :
    w.numberAmong kept i ≠ w.numberAmong kept j := by
  rcases Nat.lt_or_gt_of_ne hij with hlt | hlt
  · exact Nat.ne_of_lt (numberAmong_lt_of_lt hm hkept hlt)
  · exact Nat.ne_of_gt (numberAmong_lt_of_lt hm' hkept' hlt)

theorem numberAmong_of_le {i : Nat} (hi : w.meters.length ≤ i) :
    w.numberAmong kept i = w.homes.countP kept := by
  rw [numberAmong, List.take_of_length_le (by rwa [length_homes])]

/-! ## The two runs -/

/-- Whether a world `v` is like a world `w` in which there are no meters but those of some sessions,
where the meters that were made for parts have the same parents. -/
structure Thinned (kept : Nat → Bool) (parts : List Nat) (w v : World) : Prop where
  /-- The clocks are the same. -/
  clock : v.clock = w.clock
  /-- The metrics are the same. -/
  metrics : v.metrics = w.metrics
  /-- The sessions that are kept are the same. -/
  sessions : ∀ k, kept k = true → v.sessions[k]? = w.sessions[k]?
  /-- There are no other meters. -/
  length : v.meters.length = w.homes.countP kept
  /-- Each meter that is kept is there, perhaps with another parent. -/
  meter : ∀ i m, w.meters[i]? = some m → kept m.session = true →
    ∃ parent, v.meters[w.numberAmong kept i]? = some (m.withParent parent) ∧
      (i ∈ parts → parent = m.snapshot.parent)
  /-- The meters for parts were created. -/
  bounded : ∀ i ∈ parts, i < w.meters.length

variable {parts : List Nat} {v : World} {i : Nat} {m : Meter} {session : Session}

theorem Thinned.now (h : w.Thinned kept parts v) : v.now = w.now := by
  rw [World.now, World.now, h.clock]

theorem Thinned.surroundings (h : w.Thinned kept parts v) (session : Session) :
    v.surroundings enabled session = w.surroundings enabled session := by
  rw [World.surroundings, World.surroundings, h.now, h.metrics]

theorem Thinned.getElem?_eq_none (h : w.Thinned kept parts v) (hm : w.meters[i]? = none) :
    v.meters[w.numberAmong kept i]? = none := by
  rw [List.getElem?_eq_none_iff] at hm ⊢
  rw [numberAmong_of_le hm, h.length]

/-- A deed on one of the meters that are kept does the same in both worlds. -/
theorem Thinned.affected (h : w.Thinned kept parts v) (hm : w.meters[i]? = some m)
    (hkept : kept m.session = true) (d : Deed) (around : Surroundings) {parent : Option String}
    (hm' : v.meters[w.numberAmong kept i]? = some (m.withParent parent))
    (hparent : i ∈ parts → parent = m.snapshot.parent) :
    (w.affected i (d.perform around ⟨m, w.stack, []⟩)).Thinned kept parts
      (v.affected (w.numberAmong kept i)
        (d.perform around ⟨m.withParent parent, v.stack, []⟩)) := by
  have hhomes : (w.affected i (d.perform around ⟨m, w.stack, []⟩)).homes = w.homes :=
    homes_affected hm (Focus.session_perform w.stack)
  have hnumber (j : Nat) : (w.affected i (d.perform around ⟨m, w.stack, []⟩)).numberAmong kept j =
      w.numberAmong kept j := by
    rw [numberAmong, hhomes, numberAmong]
  have hlt := (List.getElem?_eq_some_iff.mp hm).1
  have hlt' := (List.getElem?_eq_some_iff.mp hm').1
  refine ⟨h.clock, h.metrics, h.sessions, ?_, ?_, ?_⟩
  · rw [hhomes, ← h.length, World.affected, List.length_set]
  · intro j m' hj hkept'
    rw [hnumber]
    by_cases hij : i = j
    · subst hij
      rw [World.affected, List.getElem?_set_self hlt] at hj
      obtain rfl := Option.some.inj hj
      refine ⟨parent, ?_, ?_⟩
      · rw [World.affected, List.getElem?_set_self hlt', Focus.perform_withParent w.stack v.stack]
      · rw [Focus.parent_perform]
        exact hparent
    · rw [World.affected, List.getElem?_set_ne hij] at hj
      rw [World.affected, List.getElem?_set_ne (numberAmong_ne hm hkept hj hkept' hij)]
      exact h.meter j m' hj hkept'
  · intro j hj
    rw [World.affected, List.length_set]
    exact h.bounded j hj

/-- What is done to a meter that is left out is not seen. -/
theorem Thinned.affected_left (h : w.Thinned kept parts v) (hm : w.meters[i]? = some m)
    (hkept : kept m.session = false) {g : Focus} (hg : g.meter.session = m.session) :
    (w.affected i g).Thinned kept parts v := by
  have hhomes : (w.affected i g).homes = w.homes := homes_affected hm hg
  refine ⟨h.clock, h.metrics, h.sessions, ?_, ?_, ?_⟩
  · rw [hhomes, h.length]
  · intro j m' hj hkept'
    rw [numberAmong, hhomes]
    by_cases hij : i = j
    · subst hij
      rw [World.affected, List.getElem?_set_self (List.getElem?_eq_some_iff.mp hm).1] at hj
      obtain rfl := Option.some.inj hj
      rw [hg, hkept] at hkept'
      cases hkept'
    · rw [World.affected, List.getElem?_set_ne hij] at hj
      exact h.meter j m' hj hkept'
  · intro j hj
    rw [World.affected, List.length_set]
    exact h.bounded j hj

section

variable {k : Nat} {category : String} {operation parent : Option String} {context : Context}

theorem homes_created : (w.created k session category operation parent context).homes =
    w.homes ++ [k] := List.map_append

theorem length_created : (w.created k session category operation parent context).meters.length =
    w.meters.length + 1 := List.length_append

theorem numberAmong_created {j : Nat} (hj : j ≤ w.meters.length) :
    (w.created k session category operation parent context).numberAmong kept j =
      w.numberAmong kept j := by
  rw [numberAmong, homes_created, List.take_append_of_le_length (by rwa [length_homes]),
    numberAmong]

theorem getElem?_created_cases {j : Nat} {m : Meter}
    (hm : (w.created k session category operation parent context).meters[j]? = some m) :
    w.meters[j]? = some m ∨ j = w.meters.length ∧ m = {
      snapshot := w.fresh session (session.positions.next category operation).1 category operation
        parent context
      session := k } := by
  have hj := (List.getElem?_eq_some_iff.mp hm).1
  rw [length_created] at hj
  rcases Nat.lt_succ_iff_lt_or_eq.mp hj with hlt | rfl
  · rw [World.created, List.getElem?_append_left hlt] at hm
    exact Or.inl hm
  · rw [getElem?_created] at hm
    exact Or.inr ⟨rfl, (Option.some.inj hm).symm⟩

/-- A meter that is made for a part, with a parent of its own, is the same in both worlds, and
another one differs in the parent. -/
theorem Thinned.created (h : w.Thinned kept parts v) (hkept : kept k = true)
    (hsession : w.sessions[k]? = some session) {more : List Nat}
    (hmore : ∀ j ∈ more, j = w.meters.length ∧ parent.isSome = true) :
    (w.created k session category operation parent context).Thinned kept (parts ++ more)
      (v.created k session category operation parent context) := by
  have hlt := (List.getElem?_eq_some_iff.mp hsession).1
  have hlt' := (List.getElem?_eq_some_iff.mp ((h.sessions k hkept).trans hsession)).1
  refine ⟨h.clock, h.metrics, ?_, ?_, ?_, ?_⟩
  · intro k' hk'
    by_cases hsame : k = k'
    · subst hsame
      rw [World.created, World.created, List.getElem?_set_self hlt, List.getElem?_set_self hlt']
    · rw [World.created, World.created, List.getElem?_set_ne hsame, List.getElem?_set_ne hsame]
      exact h.sessions k' hk'
  · rw [length_created, homes_created, List.countP_append, h.length]
    simp [hkept]
  · intro j m hj hkept'
    rcases getElem?_created_cases hj with hold | ⟨rfl, rfl⟩
    · have hj := (List.getElem?_eq_some_iff.mp hold).1
      obtain ⟨parent', hm', hparent⟩ := h.meter j m hold hkept'
      rw [numberAmong_created hj.le]
      refine ⟨parent', ?_, ?_⟩
      · rw [World.created, List.getElem?_append_left (List.getElem?_eq_some_iff.mp hm').1]
        exact hm'
      · intro hmem
        rcases List.mem_append.mp hmem with hmem | hmem
        · exact hparent hmem
        · exact absurd (hmore j hmem).1 hj.ne
    · rw [numberAmong_created le_rfl, numberAmong_of_le le_rfl, ← h.length, getElem?_created]
      refine ⟨parent.or v.stack.current, ?_, ?_⟩
      · rw [World.fresh, World.fresh, h.now]
        rfl
      · intro hmem
        rcases List.mem_append.mp hmem with hmem | hmem
        · exact absurd (h.bounded _ hmem) (Nat.lt_irrefl _)
        · obtain ⟨id, rfl⟩ := Option.isSome_iff_exists.mp (hmore _ hmem).2
          rfl
  · intro j hj
    rw [length_created]
    rcases List.mem_append.mp hj with hmem | hmem
    · exact Nat.lt_succ_of_lt (h.bounded j hmem)
    · rw [(hmore j hmem).1]
      exact Nat.lt_succ_self _

/-- A meter that is made in a session that is left out is not seen. -/
theorem Thinned.created_left (h : w.Thinned kept parts v) (hkept : kept k = false)
    {more : List Nat} (hmore : ∀ j ∈ more, j = w.meters.length) :
    (w.created k session category operation parent context).Thinned kept (parts ++ more) v := by
  refine ⟨h.clock, h.metrics, ?_, ?_, ?_, ?_⟩
  · intro k' hk'
    have hne : k ≠ k' := fun hsame => by rw [hsame, hk'] at hkept; cases hkept
    rw [World.created, List.getElem?_set_ne hne]
    exact h.sessions k' hk'
  · rw [homes_created, List.countP_append, h.length]
    simp [hkept]
  · intro j m hj hkept'
    rcases getElem?_created_cases hj with hold | ⟨rfl, rfl⟩
    · have hj := (List.getElem?_eq_some_iff.mp hold).1
      obtain ⟨parent', hm', hparent⟩ := h.meter j m hold hkept'
      rw [numberAmong_created hj.le]
      refine ⟨parent', hm', ?_⟩
      intro hmem
      rcases List.mem_append.mp hmem with hmem | hmem
      · exact hparent hmem
      · exact absurd (hmore j hmem) hj.ne
    · cases hkept.symm.trans hkept'
  · intro j hj
    rw [length_created]
    rcases List.mem_append.mp hj with hmem | hmem
    · exact Nat.lt_succ_of_lt (h.bounded j hmem)
    · rw [hmore j hmem]
      exact Nat.lt_succ_self _

end

/-! ## One action -/

theorem create_of_getElem? {k : Nat} (hsession : w.sessions[k]? = some session) (category : String)
    (operation parent : Option String) (context : Context) :
    w.create k category operation parent context =
      w.created k session category operation parent context := by
  rcases create_eq w k category operation parent context with ⟨hnone, -⟩ | ⟨session', h, heq⟩
  · cases hsession.symm.trans hnone
  · obtain rfl := Option.some.inj (hsession.symm.trans h)
    exact heq

theorem act_on_of_none (hm : w.meters[i]? = none) (d : Deed) : w.act enabled (d.on i) = w := by
  cases d with
  | call c => simp only [Deed.on, act, call, withMeter, hm]
  | part name => simp only [Deed.on, act, createPart, withMeter, hm]
  | drop unwinding => simp only [Deed.on, act, drop, withMeter, hm]

theorem act_part_eq (hm : w.meters[i]? = some m) (hsession : w.sessions[m.session]? = some session)
    (name : String) :
    w.act enabled (.createPart i name) =
      (w.affected i (Deed.perform (w.surroundings enabled session) ⟨m, w.stack, []⟩
        (.part name))).created m.session session m.snapshot.category
          (some (partOperation m.snapshot name)) (some m.snapshot.fullId) m.snapshot.context := by
  rw [act, createPart_eq hm hsession, create_of_getElem?]
  exact hsession

theorem act_on_eq (hm : w.meters[i]? = some m) (hsession : w.sessions[m.session]? = some session)
    {d : Deed} (hd : ∀ name, d ≠ .part name) :
    w.act enabled (d.on i) =
      w.affected i (d.perform (w.surroundings enabled session) ⟨m, w.stack, []⟩) := by
  cases d with
  | call c =>
    exact withMeter_of_getElem? enabled w i (fun around f => f.perform around c) hm hsession
  | drop unwinding =>
    exact withMeter_of_getElem? enabled w i (fun around f => f.drop around unwinding) hm hsession
  | part name => exact absurd rfl (hd name)

theorem newPart_eq_nil {a : Action}
    (h : (w.act enabled a).meters.length = w.meters.length) : w.newPart enabled a = [] := by
  unfold newPart
  split
  · rw [h, if_neg (Nat.lt_irrefl _)]
  · rfl

theorem newPart_part (hm : w.meters[i]? = some m)
    (hsession : w.sessions[m.session]? = some session) (name : String) :
    w.newPart enabled (.createPart i name) = [w.meters.length] := by
  have hlength : (w.act enabled (.createPart i name)).meters.length = w.meters.length + 1 := by
    rw [act_part_eq hm hsession, length_created, affected, List.length_set]
  rw [newPart, hlength, if_pos (Nat.lt_succ_self _)]

theorem newPart_on (hm : w.meters[i]? = some m)
    (hsession : w.sessions[m.session]? = some session) {d : Deed} (hd : ∀ name, d ≠ .part name) :
    w.newPart enabled (d.on i) = [] := by
  apply newPart_eq_nil
  rw [act_on_eq hm hsession hd, affected, List.length_set]

theorem keptOf_on (d : Deed) : w.keptOf kept (d.on i) =
    if w.homes[i]?.all kept then [d.on (w.numberAmong kept i)] else [] := by
  cases d <;> rfl

theorem Thinned.on_kept (h : w.Thinned kept parts v) (hm : w.meters[i]? = some m)
    (hsession : w.sessions[m.session]? = some session) (hkept : kept m.session = true) (d : Deed) :
    (w.act enabled (d.on i)).Thinned kept (parts ++ w.newPart enabled (d.on i))
      (v.act enabled (d.on (w.numberAmong kept i))) := by
  obtain ⟨parent, hm', hparent⟩ := h.meter i m hm hkept
  have hsession' : v.sessions[(m.withParent parent).session]? = some session :=
    (h.sessions m.session hkept).trans hsession
  have hboth := h.affected hm hkept d (w.surroundings enabled session) hm' hparent
  have hrest (hd : ∀ name, d ≠ .part name) :
      (w.act enabled (d.on i)).Thinned kept (parts ++ w.newPart enabled (d.on i))
        (v.act enabled (d.on (w.numberAmong kept i))) := by
    rw [newPart_on hm hsession hd, List.append_nil, act_on_eq hm hsession hd,
      act_on_eq hm' hsession' hd, h.surroundings]
    exact hboth
  cases d with
  | call c | drop unwinding => exact hrest nofun
  | part name =>
    rw [Deed.on, act_part_eq hm hsession, newPart_part hm hsession, Deed.on,
      act_part_eq hm' hsession', h.surroundings]
    refine hboth.created hkept hsession ?_
    intro j hj
    rw [List.mem_singleton.mp hj, World.affected, List.length_set]
    exact ⟨rfl, rfl⟩

theorem Thinned.on_left (h : w.Thinned kept parts v) (hm : w.meters[i]? = some m)
    (hsession : w.sessions[m.session]? = some session) (hkept : kept m.session = false)
    (d : Deed) :
    (w.act enabled (d.on i)).Thinned kept (parts ++ w.newPart enabled (d.on i)) v := by
  have hleft := h.affected_left hm hkept (g := d.perform (w.surroundings enabled session)
    ⟨m, w.stack, []⟩) (Focus.session_perform w.stack)
  have hrest (hd : ∀ name, d ≠ .part name) :
      (w.act enabled (d.on i)).Thinned kept (parts ++ w.newPart enabled (d.on i)) v := by
    rw [newPart_on hm hsession hd, List.append_nil, act_on_eq hm hsession hd]
    exact hleft
  cases d with
  | call c | drop unwinding => exact hrest nofun
  | part name =>
    rw [Deed.on, act_part_eq hm hsession, newPart_part hm hsession]
    refine hleft.created_left hkept ?_
    intro j hj
    rw [List.mem_singleton.mp hj, World.affected, List.length_set]

theorem Thinned.on (h : w.Thinned kept parts v) (hw : w.HasSessions) (i : Nat) (d : Deed) :
    (w.act enabled (d.on i)).Thinned kept (parts ++ w.newPart enabled (d.on i))
      (v.acts enabled (w.keptOf kept (d.on i))) := by
  rw [keptOf_on]
  cases hm : w.meters[i]? with
  | none =>
    have hhome : w.homes[i]? = none := by
      rw [homes, List.getElem?_map, hm]
      rfl
    have hact : w.act enabled (d.on i) = w := act_on_of_none hm d
    have hact' : v.act enabled (d.on (w.numberAmong kept i)) = v :=
      act_on_of_none (h.getElem?_eq_none hm) d
    rw [newPart_eq_nil (congrArg (fun w => w.meters.length) hact), List.append_nil, hact, hhome,
      Option.all_none, if_pos rfl]
    exact (congrArg (Thinned kept parts w) hact').mpr h
  | some m =>
    have hsession := List.getElem?_eq_getElem (hw m (List.mem_of_getElem? hm))
    rw [getElem?_homes hm, Option.all_some]
    cases hkept : kept m.session with
    | true => exact h.on_kept hm hsession hkept d
    | false => exact h.on_left hm hsession hkept d

theorem Thinned.create (h : w.Thinned kept parts v) (k : Nat) (category : String)
    (operation : Option String) :
    (w.act enabled (.create k category operation)).Thinned kept parts
      (v.acts enabled (w.keptOf kept (.create k category operation))) := by
  have hkeptOf : w.keptOf kept (.create k category operation) =
      if kept k then [.create k category operation] else [] := rfl
  rw [hkeptOf, act]
  cases hsession : w.sessions[k]? with
  | none =>
    have hsame : w.create k category operation none .empty = w := by
      simp only [World.create, hsession]
    rw [hsame]
    cases hkept : kept k with
    | false => exact h
    | true =>
      have hsame' : v.create k category operation none .empty = v := by
        simp only [World.create, h.sessions k hkept, hsession]
      exact (congrArg (Thinned kept parts w) hsame').mpr h
  | some session =>
    have hmore {p : Nat → Prop} : ∀ j ∈ [], p j := fun _ hj => absurd hj List.not_mem_nil
    rw [create_of_getElem? hsession, ← List.append_nil parts]
    cases hkept : kept k with
    | false => exact h.created_left hkept hmore
    | true =>
      have hact := create_of_getElem? ((h.sessions k hkept).trans hsession) category operation none
        .empty
      exact (congrArg (Thinned kept _ _) hact).mpr (h.created hkept hsession hmore)

theorem Thinned.of_eq {w' v' : World} (h : w.Thinned kept parts v)
    (hmeters : w'.meters = w.meters) (hsessions : w'.sessions = w.sessions)
    (hmeters' : v'.meters = v.meters) (hsessions' : v'.sessions = v.sessions)
    (hclock : v'.clock = w'.clock) (hmetrics : v'.metrics = w'.metrics) :
    w'.Thinned kept parts v' := by
  have hhomes : w'.homes = w.homes := by rw [homes, hmeters, homes]
  refine ⟨hclock, hmetrics, ?_, ?_, ?_, ?_⟩
  · rw [hsessions, hsessions']
    exact h.sessions
  · rw [hmeters', hhomes]
    exact h.length
  · intro j m hm hkept
    rw [numberAmong, hhomes, hmeters']
    rw [hmeters] at hm
    exact h.meter j m hm hkept
  · rw [hmeters]
    exact h.bounded

/-- What is left of an action keeps the worlds alike. -/
theorem Thinned.act (h : w.Thinned kept parts v) (hw : w.HasSessions) (a : Action) :
    (w.act enabled a).Thinned kept (parts ++ w.newPart enabled a)
      (v.acts enabled (w.keptOf kept a)) := by
  cases a with
  | call i c => exact h.on hw i (.call c)
  | createPart i name => exact h.on hw i (.part name)
  | drop unwinding i => exact h.on hw i (.drop unwinding)
  | setClock nanos =>
    rw [newPart_eq_nil rfl, List.append_nil]
    exact h.of_eq rfl rfl rfl rfl rfl h.metrics
  | advance nanos =>
    rw [newPart_eq_nil rfl, List.append_nil]
    exact h.of_eq rfl rfl rfl rfl (congrArg (Word.satAdd · nanos) h.clock) h.metrics
  | setMetrics m =>
    rw [newPart_eq_nil rfl, List.append_nil]
    exact h.of_eq rfl rfl rfl rfl h.clock rfl
  | enterThread =>
    rw [newPart_eq_nil rfl, List.append_nil]
    exact h.of_eq rfl rfl rfl rfl h.clock h.metrics
  | leaveThread =>
    obtain ⟨hmeters, hsessions⟩ := act_of_switchesThread enabled w .leaveThread rfl
    obtain ⟨hmeters', hsessions'⟩ := act_of_switchesThread enabled v .leaveThread rfl
    have hrest (w : World) : w.leaveThread.clock = w.clock ∧ w.leaveThread.metrics = w.metrics := by
      unfold leaveThread
      split <;> exact ⟨rfl, rfl⟩
    rw [newPart_eq_nil (congrArg List.length hmeters), List.append_nil]
    · refine h.of_eq hmeters hsessions hmeters' hsessions' ?_ ?_
      · exact (hrest v).1.trans (h.clock.trans (hrest w).1.symm)
      · exact (hrest v).2.trans (h.metrics.trans (hrest w).2.symm)
  | create k category operation =>
    rw [newPart, List.append_nil]
    · exact h.create k category operation
    · nofun

end

/-! ## All actions -/

theorem thinned_acts (enabled : Enabled) (kept : Nat → Bool) {w : World} (hw : w.Untouched)
    (as : List Action) :
    (w.acts enabled as).Thinned kept (w.parts enabled as)
      (w.acts enabled (w.thin enabled kept as)) := by
  induction as using List.reverseRecOn with
  | nil =>
    refine ⟨rfl, rfl, fun _ _ => rfl, ?_, ?_, nofun⟩
    · simp [acts, thin, homes, hw.meters]
    · intro i m hm
      simp [acts, hw.meters] at hm
  | append_singleton as a ih =>
    rw [thin_concat, parts_concat, acts_concat, acts_append]
    exact ih.act (sound_acts enabled w hw as).hasSessions a

section

variable {enabled : Enabled} {kept : Nat → Bool} {parts : List Nat} {w v : World} {i : Nat}
  {m : Meter} {session : Session}

theorem logged_of_log_eq {a : Action} {es : List Event}
    (h : (w.act enabled a).log = w.log ++ es) : w.logged enabled a = es := by
  rw [logged, h, List.drop_left]

theorem logged_perform (hm : w.meters[i]? = some m)
    (hsession : w.sessions[m.session]? = some session) (d : Deed) :
    w.logged enabled (d.on i) =
      (d.perform (w.surroundings enabled session) ⟨m, w.stack, []⟩).events := by
  apply logged_of_log_eq
  cases d with
  | call c | drop unwinding =>
    refine congrArg log (act_on_eq hm hsession ?_)
    nofun
  | part name => exact congrArg log (act_part_eq hm hsession name)

/-- What is left of an action logs the same in both worlds. -/
theorem Thinned.logged_on (h : w.Thinned kept parts v) (hw : w.HasSessions) (d : Deed)
    (hkeeps : w.keeps kept (d.on i) = true) :
    List.Forall₂ Event.SameButParent (w.logged enabled (d.on i))
        (v.logged enabled (d.on (w.numberAmong kept i))) ∧
      (i ∈ parts → v.logged enabled (d.on (w.numberAmong kept i)) =
        w.logged enabled (d.on i)) := by
  have hkeeps' : w.homes[i]?.all kept = true := by
    rw [← hkeeps]
    cases d <;> rfl
  cases hm : w.meters[i]? with
  | none =>
    have hact : w.act enabled (d.on i) = w := act_on_of_none hm d
    have hact' : v.act enabled (d.on (w.numberAmong kept i)) = v :=
      act_on_of_none (h.getElem?_eq_none hm) d
    have hnone : w.logged enabled (d.on i) = [] :=
      logged_of_log_eq (by rw [hact, List.append_nil])
    have hnone' : v.logged enabled (d.on (w.numberAmong kept i)) = [] :=
      logged_of_log_eq (by rw [hact', List.append_nil])
    rw [hnone, hnone']
    exact ⟨.nil, fun _ => rfl⟩
  | some m =>
    rw [getElem?_homes hm, Option.all_some] at hkeeps'
    have hsession := List.getElem?_eq_getElem (hw m (List.mem_of_getElem? hm))
    obtain ⟨parent, hm', hparent⟩ := h.meter i m hm hkeeps'
    have hsession' := (h.sessions m.session hkeeps').trans hsession
    rw [logged_perform hm hsession, logged_perform hm' hsession', h.surroundings]
    refine ⟨Focus.events_perform_withParent w.stack v.stack, ?_⟩
    intro hi
    rw [hparent hi]
    exact Focus.events_perform w.stack v.stack

theorem logged_eq_nil {a : Action} (ha : a.target? = none) : w.logged enabled a = [] := by
  apply logged_of_log_eq
  rw [List.append_nil]
  cases a with
  | create k category operation => exact log_create w k category operation none .empty
  | leaveThread =>
    rw [act, leaveThread]
    split <;> rfl
  | setClock nanos | advance nanos | setMetrics m | enterThread => rfl
  | call i c | createPart i name | drop unwinding i => cases ha

theorem Thinned.logged (h : w.Thinned kept parts v) (hw : w.HasSessions) (a : Action)
    (hkeeps : w.keeps kept a = true) :
    List.Forall₂ Event.SameButParent (w.logged enabled a)
        (v.logged enabled (w.renumber kept a)) ∧
      (∀ i ∈ parts, a.target? = some i →
        v.logged enabled (w.renumber kept a) = w.logged enabled a) := by
  have hon (i : Nat) (d : Deed) (hkeeps : w.keeps kept (d.on i) = true) :
      List.Forall₂ Event.SameButParent (w.logged enabled (d.on i))
          (v.logged enabled (d.on (w.numberAmong kept i))) ∧
        (∀ j ∈ parts, (d.on i).target? = some j →
          v.logged enabled (d.on (w.numberAmong kept i)) = w.logged enabled (d.on i)) := by
    obtain ⟨hevents, hsame⟩ := h.logged_on hw d hkeeps
    refine ⟨hevents, ?_⟩
    intro j hj hij
    obtain rfl := Option.some.inj ((target?_on i d).symm.trans hij)
    exact hsame hj
  cases a with
  | call i c => exact hon i (.call c) hkeeps
  | createPart i name => exact hon i (.part name) hkeeps
  | drop unwinding i => exact hon i (.drop unwinding) hkeeps
  | _ =>
    refine ⟨?_, fun _ _ htarget => by cases htarget⟩
    rw [logged_eq_nil rfl, logged_eq_nil rfl]
    exact .nil

end

/-- Sessions do not interfere. Take any sequence of actions, and leave out all creations, calls and
drops of meters that do not come from some given sessions. The meters that come from these sessions
are then there as before, without others, and are the same in every respect but the parent, and even
in that if they were made for parts of operations. What remains of a further action logs the same
events, except that the data of a transition can show another parent, and just the same for a meter
that was made for a part. -/
theorem sessions_do_not_interfere (enabled : Enabled) (kept : Nat → Bool) (w : World)
    (hw : w.Untouched) (as : List Action) :
    (w.acts enabled (w.thin enabled kept as)).meters.length =
        (w.acts enabled as).homes.countP kept ∧
      (∀ i m, (w.acts enabled as).meters[i]? = some m → kept m.session = true →
        ∃ parent,
          (w.acts enabled (w.thin enabled kept as)).meters[
            (w.acts enabled as).numberAmong kept i]? = some (m.withParent parent) ∧
          (i ∈ w.parts enabled as → parent = m.snapshot.parent)) ∧
      ∀ a, w.thin enabled kept (as ++ [a]) =
          w.thin enabled kept as ++ (w.acts enabled as).keptOf kept a ∧
        ((w.acts enabled as).keeps kept a = true →
          List.Forall₂ Event.SameButParent ((w.acts enabled as).logged enabled a)
              ((w.acts enabled (w.thin enabled kept as)).logged enabled
                ((w.acts enabled as).renumber kept a)) ∧
            ∀ i ∈ w.parts enabled as, a.target? = some i →
              (w.acts enabled (w.thin enabled kept as)).logged enabled
                  ((w.acts enabled as).renumber kept a) =
                (w.acts enabled as).logged enabled a) := by
  have h := thinned_acts enabled kept hw as
  have hsessions := (sound_acts enabled w hw as).hasSessions
  refine ⟨h.length, h.meter, ?_⟩
  intro a
  exact ⟨thin_concat as a, h.logged hsessions a⟩

/-- A meter that is made while one of another session is active, and a part of it. -/
def guests : List Action :=
  [.create 1 "x" none, .call 0 .start, .create 0 "c" none, .createPart 1 "p"]

/-- Without the other session the meter has no parent, and the part of it is the same. -/
theorem sessions_do_not_interfere_guests :
    ∃ w v : World, w = World.acts (fun _ _ => true)
        { sessions := [{ id := "s" }, { id := "t" }] } guests ∧
      v = World.acts (fun _ _ => true) { sessions := [{ id := "s" }, { id := "t" }] }
        [.create 0 "c" none, .createPart 0 "p"] ∧
      w.meters[1]?.map (·.snapshot.parent) = some (some "x#1") ∧
      v.meters[0]?.map (·.snapshot.parent) = some none ∧ v.meters[1]? = w.meters[2]? := by
  obtain ⟨-, hmeter, -⟩ := sessions_do_not_interfere (fun _ _ => true) (· == 0)
    { sessions := [{ id := "s" }, { id := "t" }] } ⟨rfl, rfl, rfl, by simp⟩ guests
  obtain ⟨parent, hm, hparent⟩ := hmeter 2 _ rfl rfl
  rw [hparent (by decide +kernel)] at hm
  exact ⟨_, _, rfl, rfl, by decide +kernel, by decide +kernel, hm⟩

end World
end Metering
