import Metering.Proofs.Ownership

/-!
# Proofs: what a thread holds

A thread holds the identities of those of its own meters that are active, each as often as there are
such meters with it. Its own meters are those that its script knows by name. This is true of the
running thread and of all that wait, for nothing is ever done to a meter of another thread.
-/

namespace Metering

namespace World

/-- Whether a thread with some active meters holds the identities of the active ones of its own. -/
def Accounts (w : World) (stack : ActiveStack) (mine : List Nat) : Prop :=
  stack.ids.Perm (w.activeIds mine)

/-- Whether the running thread, with its own meters, and the threads that wait for it, with theirs,
hold the identities of those that are active. -/
structure Balanced (w : World) (mine : List Nat) (outers : List (List Nat)) : Prop where
  /-- The running thread holds those of its own meters. -/
  running : w.Accounts w.stack mine
  /-- Each thread that waits holds those of its own. -/
  waiting : List.Forall₂ w.Accounts (w.waiting.take outers.length) outers

section

variable {enabled : Enabled} {w : World} {mine : List Nat} {outers : List (List Nat)}

theorem Accounts.of_activeId? {stack : ActiveStack} (h : w.Accounts stack mine) {w' : World}
    (hid : ∀ j ∈ mine, w'.activeId? j = w.activeId? j) : w'.Accounts stack mine := by
  have hids : w'.activeIds mine = w.activeIds mine := List.filterMap_congr hid
  rw [Accounts, hids]
  exact h

theorem Accounts.of_perm {stack : ActiveStack} (h : w.Accounts stack mine) {mine' : List Nat}
    (hperm : mine'.Perm mine) : w.Accounts stack mine' :=
  h.trans (hperm.symm.filterMap _)

/-- A meter that is not active need not be among the own ones. -/
theorem accounts_cons_iff {stack : ActiveStack} {i : Nat} (hi : w.activeId? i = none) :
    w.Accounts stack (i :: mine) ↔ w.Accounts stack mine := by
  rw [Accounts, activeIds, List.filterMap_cons_none hi, Accounts, activeIds]

theorem accounts_affected {i : Nat} {m : Meter} {session : Session} {t : Option Transition}
    {g : Focus} (h : w.Accounts w.stack (i :: mine)) (hi : i ∉ mine) (hm : w.meters[i]? = some m)
    (heffect : Focus.Effect (w.surroundings enabled session) ⟨m, w.stack, []⟩ t g) :
    (w.affected i g).Accounts g.stack (i :: mine) := by
  have hid : g.meter.snapshot.fullId = m.snapshot.fullId :=
    Meter.fullId_eq_of_place heffect.meter_change.place_eq
  have hafter : (w.affected i g).activeIds (i :: mine) =
      (if g.meter.active then [m.snapshot.fullId] else []) ++ w.activeIds mine := by
    have hself := activeId?_affected_self (g := g) hm
    have hrest := activeIds_affected (w := w) (g := g) hi
    rw [hid] at hself
    rw [activeIds] at hrest
    cases hactive : g.meter.active <;> simp [activeIds, hself, hactive, hrest]
  have hbefore : w.activeIds (i :: mine) =
      (if m.active then [m.snapshot.fullId] else []) ++ w.activeIds mine := by
    cases hactive : m.active <;> simp [activeIds, activeId?, hm, hactive]
  have hstack := heffect.stack_eq
  rw [Accounts, hbefore] at h
  rw [Accounts, hafter]
  cases hm : m.active <;> cases hg : g.meter.active
  all_goals
    simp only [hm, hg, if_true, Bool.false_eq_true, Bool.true_eq_false, if_false] at h hstack ⊢
    rw [hstack]
  case false.false | true.true => exact h
  case false.true => exact h.cons m.snapshot.fullId
  case true.false =>
    have herase := h.erase m.snapshot.fullId
    rwa [List.singleton_append, List.erase_cons_head] at herase

theorem forall_accounts_affected {threads : List ActiveStack}
    (h : List.Forall₂ w.Accounts threads outers) {i : Nat} (hi : ∀ others ∈ outers, i ∉ others)
    {g : Focus} : List.Forall₂ (w.affected i g).Accounts threads outers := by
  induction h with
  | nil => exact .nil
  | cons haccounts _ ih =>
    obtain ⟨hfirst, hothers⟩ := List.forall_mem_cons.mp hi
    refine .cons (haccounts.of_activeId? ?_) (ih hothers)
    intro j hj
    exact activeId?_affected_ne fun hij => hfirst (hij ▸ hj)

theorem Balanced.of_eq (h : w.Balanced mine outers) {w' : World} (hmeters : w'.meters = w.meters)
    (hstack : w'.stack = w.stack) (hwaiting : w'.waiting = w.waiting) :
    w'.Balanced mine outers := by
  have hid (j : Nat) : w'.activeId? j = w.activeId? j := by rw [activeId?, hmeters, activeId?]
  refine ⟨?_, ?_⟩
  · rw [hstack]
    exact h.running.of_activeId? fun j _ => hid j
  · rw [hwaiting]
    exact h.waiting.imp fun _ _ h => h.of_activeId? fun j _ => hid j

theorem Balanced.of_perm (h : w.Balanced mine outers) {mine' : List Nat}
    (hperm : mine'.Perm mine) : w.Balanced mine' outers :=
  ⟨h.running.of_perm hperm, h.waiting⟩

theorem Balanced.cons_iff {i : Nat} (hi : w.activeId? i = none) :
    w.Balanced (i :: mine) outers ↔ w.Balanced mine outers :=
  ⟨fun h => ⟨(accounts_cons_iff hi).mp h.running, h.waiting⟩,
    fun h => ⟨(accounts_cons_iff hi).mpr h.running, h.waiting⟩⟩

/-- What is done to a meter of the running thread keeps the balance of all threads. -/
theorem Balanced.affected (h : w.Balanced mine outers) (hnodup : (mine ++ outers.flatten).Nodup)
    {i : Nat} (hi : i ∈ mine) {m : Meter} {session : Session} {t : Option Transition} {g : Focus}
    (hm : w.meters[i]? = some m)
    (heffect : Focus.Effect (w.surroundings enabled session) ⟨m, w.stack, []⟩ t g) :
    (w.affected i g).Balanced mine outers := by
  obtain ⟨hmine, -, hdisjoint⟩ := List.nodup_append'.mp hnodup
  have hperm : mine.Perm (i :: mine.erase i) := List.perm_cons_erase hi
  have hrest : i ∉ mine.erase i := (List.nodup_cons.mp (hperm.nodup_iff.mp hmine)).1
  refine ⟨?_, ?_⟩
  · exact (accounts_affected (h.running.of_perm hperm.symm) hrest hm heffect).of_perm hperm
  · have hothers : ∀ others ∈ outers, i ∉ others := by
      intro others hmem hi'
      exact hdisjoint hi (List.mem_flatten.mpr ⟨others, hmem, hi'⟩)
    exact forall_accounts_affected h.waiting hothers

theorem Balanced.withMeter (h : w.Balanced mine outers) (hnodup : (mine ++ outers.flatten).Nodup)
    {i : Nat} (hi : i ∈ mine) {act : Surroundings → Focus → Focus}
    (hact : ∀ around f, ∃ t, Focus.Effect around f t (act around f)) :
    (w.withMeter enabled i act).Balanced mine outers := by
  rcases withMeter_eq enabled w i act with heq | ⟨m, session, hm, -, heq⟩
  · rwa [heq]
  · obtain ⟨t, heffect⟩ := hact (w.surroundings enabled session) ⟨m, w.stack, []⟩
    rw [heq]
    exact h.affected hnodup hi hm heffect

theorem Balanced.create (h : w.Balanced mine outers) (k : Nat) (category : String)
    (operation parent : Option String) (context : Context) :
    (w.create k category operation parent context).Balanced mine outers := by
  have hid := activeId?_create w k category operation parent context
  have hrest : (w.create k category operation parent context).stack = w.stack ∧
      (w.create k category operation parent context).waiting = w.waiting := by
    unfold World.create
    split <;> exact ⟨rfl, rfl⟩
  refine ⟨?_, ?_⟩
  · rw [hrest.1]
    exact h.running.of_activeId? fun j _ => congrFun hid j
  · rw [hrest.2]
    exact h.waiting.imp fun _ _ h => h.of_activeId? fun j _ => congrFun hid j

/-- What happens on the running thread to its own meters keeps the balance. -/
theorem Balanced.act (h : w.Balanced mine outers) (hnodup : (mine ++ outers.flatten).Nodup)
    (a : Action) (hswitch : a.switchesThread = false)
    (htarget : ∀ i, a.target? = some i → i ∈ mine) : (w.act enabled a).Balanced mine outers := by
  cases a with
  | setClock nanos | advance nanos | setMetrics m => exact h.of_eq rfl rfl rfl
  | create k category operation => exact h.create k category operation none .empty
  | createPart i name =>
    have hreport : (w.withMeter enabled i fun _ f =>
        f.report (f.snapshot.misuseOfPart name)).Balanced mine outers :=
      h.withMeter hnodup (htarget i rfl) fun around f =>
        ⟨none, effect_misuseOfPart name around f⟩
    simp only [World.act, createPart]
    split
    · exact hreport
    · exact hreport.create _ _ _ _ _
  | call i c =>
    exact h.withMeter hnodup (htarget i rfl) fun around f => exists_effect_perform around f c
  | drop unwinding i =>
    exact h.withMeter hnodup (htarget i rfl) fun around f => exists_effect_drop around f unwinding
  | enterThread | leaveThread => cases hswitch

theorem activeId?_of_length_le {i : Nat} (hi : w.meters.length ≤ i) : w.activeId? i = none := by
  rw [activeId?, List.getElem?_eq_none hi]
  rfl

/-- A new meter is not active. -/
theorem activeId?_act_new (a : Action) (ha : a.creates = true) :
    (w.act enabled a).activeId? w.meters.length = none := by
  cases a with
  | create k category operation =>
    rw [World.act, activeId?_create]
    exact activeId?_of_length_le le_rfl
  | createPart i name =>
    have hreport : (w.withMeter enabled i fun _ f =>
        f.report (f.snapshot.misuseOfPart name)).activeId? w.meters.length = none :=
      activeId?_of_length_le (length_withMeter enabled w i _).le
    simp only [World.act, createPart]
    split
    · exact hreport
    · rwa [activeId?_create]
  | _ => cases ha

/-- A dropped meter is not active. -/
theorem activeId?_drop (hw : w.HasSessions) (unwinding : Bool) (i : Nat) :
    (w.act enabled (.drop unwinding i)).activeId? i = none := by
  cases hm : w.meters[i]? with
  | none =>
    refine activeId?_of_length_le ?_
    rw [length_act w (.drop unwinding i) rfl]
    exact List.getElem?_eq_none_iff.mp hm
  | some m =>
    have hsession := hw m (List.mem_of_getElem? hm)
    have hact := withMeter_of_getElem? enabled w i (fun around f => f.drop around unwinding) hm
      (List.getElem?_eq_getElem hsession)
    rw [World.act, World.drop, hact, activeId?_affected_self hm, Focus.drop, Focus.meter_deactivate]
    rfl

end

end World

open World

namespace Run

variable {α : Type}

/-- Whether a run owns its meters, except for some that it has given away and those of the threads
that wait, and every thread holds the identities of its active meters. -/
structure Balanced (l : Logger) (w : World) (given : List Nat) (outers : List (List Nat))
    (depth : Nat) (r : Run α) : Prop where
  /-- The run owns its meters. -/
  owns : Owns l w (given ++ outers.flatten) depth r
  /-- The threads hold the identities of their active meters. -/
  balanced : r.world.Balanced (given ++ r.held) outers

variable {l : Logger} {w : World} {given : List Nat} {outers : List (List Nat)} {depth : Nat}
  {r : Run α}

theorem Balanced.nodup (h : Balanced l w given outers depth r) :
    ((given ++ r.held) ++ outers.flatten).Nodup := by
  have hnodup := h.owns.nodup
  rw [← List.append_assoc] at hnodup
  exact ((List.perm_append_comm.append_right _).nodup_iff).mp hnodup

theorem Balanced.of_perm (h : Balanced l w given outers depth r) {r' : Run α} {given' : List Nat}
    {depth' : Nat} (hworld : r'.world = r.world) (hhistory : r'.history = r.history)
    (hperm : (given' ++ r'.held).Perm (given ++ r.held)) (hdepth : r'.scopes.length = depth') :
    Balanced l w given' outers depth' r' := by
  refine ⟨h.owns.of_perm hworld hhistory ?_ hdepth, ?_⟩
  · rw [← List.append_assoc, ← List.append_assoc]
    exact (List.perm_append_comm.trans (hperm.trans List.perm_append_comm)).append_right _
  · rw [hworld]
    exact h.balanced.of_perm hperm

theorem Balanced.record (h : Balanced l w given outers depth r) (occasion : Occasion α)
    (meter : Option Nat) : Balanced l w given outers depth (r.record occasion meter) :=
  ⟨h.owns.record occasion meter, h.balanced⟩

theorem Balanced.forget (h : Balanced l w given outers depth r) :
    Balanced l w given outers depth (r.forget l) := by
  refine ⟨h.owns.forget, ?_⟩
  simp only [Run.forget]
  split <;> exact h.balanced

theorem Balanced.act (h : Balanced l w given outers depth r) (a : Action)
    (hcreates : a.creates = false) (hdrop : ∀ unwinding i, a ≠ .drop unwinding i)
    (hswitch : a.switchesThread = false) (htarget : ∀ i, a.target? = some i → i ∈ r.held) :
    Balanced l w given outers depth (r.act l a) := by
  refine ⟨h.owns.act a hcreates hdrop fun i hi => h.owns.isLive (htarget i hi), ?_⟩
  exact h.balanced.act h.nodup a hswitch fun i hi => List.mem_append_right _ (htarget i hi)

theorem Balanced.hasSessions (h : Balanced l w given outers depth r) (hw : w.Untouched) :
    r.world.HasSessions := by
  rw [h.owns.world]
  exact (sound_acts l.enabled w hw _).hasSessions

theorem Balanced.drop {i : Nat} (h : Balanced l w (i :: given) outers depth r) (hw : w.Untouched)
    (unwinding : Bool) : Balanced l w given outers depth (r.act l (.drop unwinding i)) := by
  refine ⟨h.owns.drop unwinding, ?_⟩
  refine (World.Balanced.cons_iff (activeId?_drop (h.hasSessions hw) unwinding i)).mp ?_
  refine h.balanced.act h.nodup (.drop unwinding i) rfl ?_
  intro j hj
  obtain rfl := Option.some.inj hj
  exact List.mem_append_left _ List.mem_cons_self

theorem Balanced.adopt (h : Balanced l w given outers (depth + 1) r) (name : String) {a : Action}
    (hcreates : a.creates = true) (hswitch : a.switchesThread = false)
    (htarget : ∀ i, a.target? = some i → i ∈ r.held) :
    Balanced l w given outers (depth + 1) (r.adopt l name a) := by
  refine ⟨h.owns.adopt name hcreates fun i hi => h.owns.isLive (htarget i hi), ?_⟩
  have hact : (r.act l a).world.Balanced (given ++ r.held) outers :=
    h.balanced.act h.nodup a hswitch fun i hi => List.mem_append_right _ (htarget i hi)
  simp only [Run.adopt]
  split
  · have hheld : held { r.act l a with
        scopes := bind (name, r.world.meters.length) (r.act l a).scopes } =
          r.world.meters.length :: r.held := by
      simp only [held, flatten_bind, List.map_cons]
      rfl
    rw [hheld]
    have hnew := (World.Balanced.cons_iff (activeId?_act_new a hcreates)).mpr hact
    exact hnew.of_perm List.perm_middle
  · exact hact

theorem Balanced.dropNamed (h : Balanced l w given outers depth r) (hw : w.Untouched)
    {name : String} {i : Nat} (hi : r.find? name = some i) (unwinding : Bool) :
    Balanced l w given outers depth
      { r.act l (.drop unwinding i) with scopes := unbindScopes name r.scopes } := by
  have hgiven : Balanced l w (i :: given) outers depth
      { r with scopes := unbindScopes name r.scopes } := by
    refine h.of_perm rfl rfl ?_ ?_
    · refine List.perm_middle.symm.trans ?_
      exact (perm_unbindScopes hi).symm.append_left given
    · rw [length_unbindScopes, h.owns.depth]
  exact hgiven.drop hw unwinding

theorem Balanced.dropAll (hw : w.Untouched) (unwinding : Bool) (scope : List Binding) {r : Run α}
    (h : Balanced l w (scope.map Prod.snd ++ given) outers depth r) :
    Balanced l w given outers depth (dropAll l unwinding scope r) := by
  induction scope generalizing r with
  | nil => exact h
  | cons b scope ih => exact ih ((h.drop hw unwinding).record (.left b.1) none)

theorem Balanced.openScope (h : Balanced l w given outers depth r) :
    Balanced l w given outers (depth + 1) r.openScope :=
  h.of_perm rfl rfl (.refl _) (by rw [Run.openScope, List.length_cons, h.owns.depth])

theorem Balanced.closeScope (h : Balanced l w given outers (depth + 1) r) (hw : w.Untouched)
    (unwinding : Bool) : Balanced l w given outers depth (r.closeScope l unwinding) := by
  obtain ⟨scope, scopes, hscopes⟩ := List.exists_cons_of_length_eq_add_one h.owns.depth
  have hgiven : Balanced l w (scope.map Prod.snd ++ given) outers depth { r with scopes } := by
    refine h.of_perm rfl rfl ?_ ?_
    · simp only [held, hscopes, List.flatten_cons, List.map_append, List.append_assoc]
      exact List.perm_append_comm_assoc _ _ _
    · have hdepth := h.owns.depth
      rw [hscopes, List.length_cons] at hdepth
      exact Nat.succ.inj hdepth
  simp only [Run.closeScope, hscopes, List.headD_cons, List.tail_cons]
  exact hgiven.dropAll hw unwinding scope

theorem Balanced.enterThread (h : Balanced l w [] outers depth r) :
    Balanced l w [] (r.held :: outers) 1 (r.enterThread l) :=
  ⟨h.owns.enterThread, .refl _, .cons h.balanced.running h.balanced.waiting⟩

theorem Balanced.leaveThread {outer : Run α} {p : Run α × Ending} (step : Step α)
    (h : Balanced l w [] (outer.held :: outers) 1 p.1) (hw : w.Untouched)
    (houter : outer.scopes.length = depth) :
    Balanced l w [] outers depth (leaveThread l step outer p).1 := by
  refine ⟨h.owns.leaveThread step houter, ?_⟩
  have hclosed := (h.closeScope hw p.2.unwinding).balanced
  -- The thread that goes on was the first of those that wait.
  have hback (r : Run α) (hclosed : r.world.Balanced ([] ++ r.held) (outer.held :: outers)) :
      (r.world.act l.enabled .leaveThread).Balanced outer.held outers := by
    have hwaiting := hclosed.waiting
    rw [World.act, World.leaveThread]
    cases hcase : r.world.waiting with
    | nil =>
      rw [hcase] at hwaiting
      cases hwaiting
    | cons stack waiting =>
      rw [hcase] at hwaiting
      cases hwaiting with
      | cons hfirst hrest => exact ⟨hfirst, hrest⟩
  exact hback _ hclosed

theorem Balanced.leaveScope {p : Run α × Ending} (step : Step α)
    (h : Balanced l w given outers (depth + 1) p.1) (hw : w.Untouched) :
    Balanced l w given outers depth (leaveScope l step p).1 := by
  obtain ⟨r, ending⟩ := p
  cases ending with
  | returned => exact (h.closeScope hw false).record _ none
  | panicked payload => exact h.closeScope hw true

theorem Balanced.ensureStarted (h : Balanced l w given outers depth r) {i : Nat} (hi : i ∈ r.held) :
    Balanced l w given outers depth (r.ensureStarted l i) := by
  unfold Run.ensureStarted
  split
  · exact h
  · refine h.act (.call i .start) rfl nofun rfl ?_
    intro j hj
    obtain rfl := Option.some.inj hj
    exact hi

/-- A meter of a thread that an executor finds unresolved is still one of the own meters. -/
theorem Balanced.ensureResolved (h : Balanced l w [] outers depth r) (hw : w.Untouched) {i : Nat}
    (hi : i < r.world.meters.length) (hothers : i ∉ outers.flatten) (c : Call) :
    Balanced l w [] outers depth (r.ensureResolved l i c) := by
  unfold Run.ensureResolved
  split
  · exact h
  · next hunresolved =>
    refine h.act (.call i c) rfl nofun rfl ?_
    intro j hj
    obtain rfl := Option.some.inj hj
    have hlive := h.owns.isLive_of_unresolved hw hi hunresolved
    rw [← h.owns.mem_iff, List.nil_append, List.mem_append] at hlive
    exact hlive.resolve_right hothers

theorem Balanced.leaveExecutor {p : Run α × Ending} (hw : w.Untouched) {i : Nat} (step : Step α)
    (e : Executor α) (h : Balanced l w [] outers depth p.1) (hi : i < p.1.world.meters.length)
    (hothers : i ∉ outers.flatten) :
    Balanced l w [] outers depth (leaveExecutor l i step e p).1 := by
  obtain ⟨r, ending⟩ := p
  cases ending with
  | returned => exact (h.ensureResolved hw hi hothers e.resolution).record _ _
  | panicked payload => exact h.ensureResolved hw hi hothers _

/-- The own meters are not those of a thread that waits. -/
theorem Balanced.not_mem_outers (h : Balanced l w given outers depth r) {i : Nat}
    (hi : i ∈ r.held) : i ∉ outers.flatten :=
  (List.nodup_append'.mp h.nodup).2.2 (List.mem_append_right _ hi)

end Run

open Run

mutual

theorem balanced_run {α : Type} (l : Logger) (w : World) (hw : w.Untouched)
    {outers : List (List Nat)} {depth : Nat} (r : Run α)
    (h : Balanced l w [] outers (depth + 1) r) :
    (step : Step α) → Balanced l w [] outers (depth + 1) (step.run l r).1
  | .setClock nanos => h.act (.setClock nanos) rfl nofun rfl nofun
  | .advance nanos => h.act (.advance nanos) rfl nofun rfl nofun
  | .setMetrics m => h.act (.setMetrics m) rfl nofun rfl nofun
  | .useSession k => h.of_perm rfl rfl (.refl _) h.owns.depth
  | .create name category operation => by
    have hadopt := h.adopt name (a := .create r.session category operation) rfl rfl nofun
    exact hadopt.record _ _
  | .createFor name typeName => by
    have hadopt := h.adopt name (a := .create r.session typeName none) rfl rfl nofun
    exact hadopt.record _ _
  | .createPart name partName newName => by
    simp only [Step.run]
    split
    · exact h
    · next i hi =>
      refine (h.adopt newName rfl rfl ?_).record _ _
      intro j hj
      obtain rfl := Option.some.inj hj
      exact mem_held_of_find? hi
  | .call name c => by
    simp only [Step.run]
    split
    · exact h
    · next i hi =>
      refine (h.act (.call i c) rfl nofun rfl ?_).record _ _
      intro j hj
      obtain rfl := Option.some.inj hj
      exact mem_held_of_find? hi
  | .look name => by
    simp only [Step.run]
    split
    · exact h
    · exact h.record _ _
  | .drop name => by
    simp only [Step.run]
    split
    · exact h.record _ _
    · next i hi => exact (h.dropNamed hw hi false).record _ _
  | .execute name e body => by
    simp only [Step.run]
    split
    · exact h
    · next i hi =>
      have henter := (h.ensureStarted (mem_held_of_find? hi)).record (.entered name) none
      have hbody := balanced_runSteps l w hw _ henter body
      refine hbody.leaveExecutor hw _ e ?_ (h.not_mem_outers (mem_held_of_find? hi))
      have hextends : Extends l r ((r.ensureStarted l i).record (.entered name) none) :=
        (extends_ensureStarted r i).trans (extends_of_eq _ _ rfl rfl)
      exact (hextends.trans (extends_runSteps l _ body)).lt_length
        (h.owns.lt_length (mem_held_of_find? hi))
  | .panic payload => h
  | .scope body => (balanced_runSteps l w hw _ h.openScope body).leaveScope _ hw
  | .catchPanic body =>
    ((balanced_runSteps l w hw _ h.openScope body).closeScope hw _).record _ none
  | .thread body =>
    (balanced_runSteps l w hw _ h.enterThread body).leaveThread _ hw h.owns.depth
  | .count m | .showConfig | .showId => h.record _ none
  | .clear => h.forget.record _ none

theorem balanced_runSteps {α : Type} (l : Logger) (w : World) (hw : w.Untouched)
    {outers : List (List Nat)} {depth : Nat} (r : Run α)
    (h : Balanced l w [] outers (depth + 1) r) :
    (steps : List (Step α)) → Balanced l w [] outers (depth + 1) (runSteps l steps r).1
  | [] => h
  | step :: steps => by
    have hstep := balanced_run l w hw r h step
    simp only [runSteps]
    split
    · next r' hr =>
      rw [hr] at hstep
      exact balanced_runSteps l w hw r' hstep steps
    · next r' payload hr =>
      rw [hr] at hstep
      exact hstep

end

/-- Before a script begins, nothing is held. -/
theorem balanced_start {α : Type} (l : Logger) {w : World} (hw : w.Untouched) :
    Balanced l w [] [] 1 ({ world := w } : Run α) := by
  refine ⟨⟨rfl, .nil, List.nodup_nil, ?_, rfl⟩, ?_, .nil⟩
  · intro i
    simp [held, IsLive, acts, hw.meters]
  · show w.stack.ids.Perm []
    rw [hw.stack]

end Metering
