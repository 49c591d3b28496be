import Metering.Proofs.Executors

/-!
# Proofs: what a panic does on its way out

A panic leaves the closures of executors and the scopes around it, the innermost first. An executor
whose operation is still open records one failure, and a scope drops its meters, which fail if their
operations are open. Nothing is done to an operation that is resolved, so every operation keeps the
outcome that it has when the panic has left its layer. When the panic reaches the caller of the
outermost executor, none of these meters is active.
-/

namespace Metering

namespace World

variable {enabled : Enabled} {w w' : World}

/-- Whether the meters of resolved operations are the same in another world. -/
def KeepsResolved (w w' : World) : Prop :=
  ∀ (i : Nat) (m : Meter), w.meters[i]? = some m → m.snapshot.outcome.isResolved = true →
    w'.meters[i]? = some m

theorem KeepsResolved.refl (w : World) : w.KeepsResolved w := fun _ _ hm _ => hm

theorem KeepsResolved.trans {w'' : World} (h : w.KeepsResolved w') (h' : w'.KeepsResolved w'') :
    w.KeepsResolved w'' := by
  intro i m hm hresolved
  exact h' i m (h i m hm hresolved) hresolved

theorem IsResolved.of_keeps (h : w.KeepsResolved w') {i : Nat} (hi : w.IsResolved i) :
    w'.IsResolved i := by
  obtain ⟨m, hm, hresolved⟩ := hi
  exact ⟨m, h i m hm hresolved, hresolved⟩

/-- What is done to a meter of an open operation changes no other meter. -/
theorem keepsResolved_act {i : Nat} (hopen : ¬ w.IsResolved i) (d : Deed) :
    w.KeepsResolved (w.act enabled (d.on i)) := by
  intro j m hm hresolved
  have hother : (d.on i).deedOn? j = none := by
    rw [deedOn?_eq_none_iff, target?_on]
    intro hij
    obtain rfl := Option.some.inj hij
    exact hopen ⟨m, hm, hresolved⟩
  exact (getElem?_act_of_not_target enabled hother (List.getElem?_eq_some_iff.mp hm).1).trans hm

/-! ## Drops -/

/-- Meters are dropped one after another while a panic unwinds the scope that owns them. -/
inductive Drops (enabled : Enabled) (w' : World) : World → List Nat → Prop where
  /-- All of them are dropped. -/
  | done : Drops enabled w' w' []
  /-- The first one is resolved already, and nothing happens. -/
  | kept {w : World} {i : Nat} {is : List Nat} {m : Meter} (hm : w.meters[i]? = some m)
    (hresolved : m.snapshot.outcome.isResolved = true) (h : Drops enabled w' w is) :
    Drops enabled w' w (i :: is)
  /-- The first one fails. It may not have been started, which is reported. -/
  | failed {w : World} {i : Nat} {is : List Nat} {m m' : Meter} {session : Session}
    (hm : w.meters[i]? = some m) (hopen : m.snapshot.outcome.isResolved = false)
    (hm' : (w.act enabled (.drop true i)).meters[i]? = some m')
    (houtcome : m'.snapshot.outcome = .fail dropPath (some unwindingMessage))
    (hsession : w.sessions[m.session]? = some session)
    (hlog : (w.act enabled (.drop true i)).log =
      w.log ++ Focus.reports (Deed.misuse m.snapshot (.drop true)) m.snapshot ++
        Focus.transitionEvents (w.surroundings enabled session) .fail m'.snapshot)
    (h : Drops enabled w' (w.act enabled (.drop true i)) is) : Drops enabled w' w (i :: is)

theorem Drops.keeps {is : List Nat} (h : Drops enabled w' w is) : w.KeepsResolved w' := by
  induction h with
  | done => exact .refl _
  | kept _ _ _ ih => exact ih
  | @failed w i is m m' session hm hopen _ _ _ _ _ ih =>
    have hunresolved : ¬ w.IsResolved i := by
      rintro ⟨m₁, hm₁, hresolved⟩
      obtain rfl := Option.some.inj (hm.symm.trans hm₁)
      cases hopen.symm.trans hresolved
    exact (keepsResolved_act hunresolved (.drop true)).trans ih

theorem Drops.isResolved {is : List Nat} (h : Drops enabled w' w is) :
    ∀ i ∈ is, w'.IsResolved i := by
  induction h with
  | done => exact nofun
  | @kept w i is m hm hresolved h ih =>
    exact List.forall_mem_cons.mpr ⟨.of_keeps h.keeps ⟨m, hm, hresolved⟩, ih⟩
  | @failed w i is m m' session hm hopen hm' houtcome _ _ h ih =>
    have hresolved : m'.snapshot.outcome.isResolved = true := by
      rw [houtcome]
      rfl
    exact List.forall_mem_cons.mpr ⟨.of_keeps h.keeps ⟨m', hm', hresolved⟩, ih⟩

/-- Nothing is left to do for a meter whose operation is resolved when it is dropped. -/
theorem act_drop_of_resolved (hw : w.Sound) {i : Nat} {m : Meter} (hm : w.meters[i]? = some m)
    (hresolved : m.snapshot.outcome.isResolved = true) (unwinding : Bool) :
    w.act enabled (.drop unwinding i) = w := by
  have hsession := hw.hasSessions m (List.mem_of_getElem? hm)
  have hmarked : m.active = (m.snapshot.isStarted && !m.snapshot.outcome.isResolved) :=
    hw.marked m (List.mem_of_getElem? hm)
  rw [hresolved, Bool.not_true, Bool.and_false] at hmarked
  have hnothing (around : Surroundings) (stack : ActiveStack) :
      Focus.drop around unwinding ⟨m, stack, []⟩ = ⟨m, stack, []⟩ := by
    simp [Focus.drop, Focus.snapshot, Focus.deactivate, hresolved, hmarked]
  have hact := withMeter_of_getElem? enabled w i (fun around f => f.drop around unwinding) hm
    (List.getElem?_eq_getElem hsession)
  rw [act, drop, hact, hnothing, affected, set_eq_self hm, List.append_nil]

/-- A meter fails if its operation is open when it is dropped. -/
theorem act_drop_of_open (enabled : Enabled) {i : Nat} {m : Meter} {session : Session}
    (hm : w.meters[i]? = some m) (hsession : w.sessions[m.session]? = some session)
    (hopen : m.snapshot.outcome.isResolved = false) (unwinding : Bool) :
    ∃ m', (w.act enabled (.drop unwinding i)).meters[i]? = some m' ∧
      m'.snapshot.outcome = dropOutcome unwinding ∧
      (w.act enabled (.drop unwinding i)).log =
        w.log ++ Focus.reports (Deed.misuse m.snapshot (.drop unwinding)) m.snapshot ++
          Focus.transitionEvents (w.surroundings enabled session) .fail m'.snapshot := by
  have houtcome : m.outcome? (.drop unwinding) = some (dropOutcome unwinding) := by
    rw [Meter.outcome?, Deed.outcome?, hopen]
    rfl
  obtain ⟨metrics, m', hchange, hm', hlog⟩ := act_on_of_transition enabled hm hsession
    (Deed.transition?_of_outcome? houtcome)
  rw [Deed.change_of_outcome? houtcome] at hchange
  refine ⟨m', hm', ?_, hlog⟩
  rw [hchange]
  rfl

end World

open World

namespace Run

variable {α : Type} {l : Logger} {w : World}

/-! ## Layers -/

/-- What happens when a panic with a text leaves a layer, from the run `s` to the run `s'`, and
which meters the layer involves. -/
inductive Leaves (l : Logger) (t : String) (s s' : Run α) : Layer → List Nat → Prop where
  /-- The operation of an executor is resolved already, and nothing happens. -/
  | kept {i : Nat} (hresolved : s.isResolved i = true) (hsame : s' = s) :
    Leaves l t s s' (.executor i) [i]
  /-- The operation of an executor is open, and it fails. -/
  | failed {i : Nat} {m : Meter} (hopen : s.isResolved i = false)
    (htransits : s.world.Transits l.enabled i (.failPath panicPath t) .fail m s'.world)
    (houtcome : m.snapshot.outcome = .fail panicPath (some t)) (hscopes : s'.scopes = s.scopes) :
    Leaves l t s s' (.executor i) [i]
  /-- The meters of a scope are dropped, the newest first. -/
  | scope {scope : List Binding} (hscopes : s.scopes = scope :: s'.scopes)
    (hdrops : Drops l.enabled s'.world s.world (scope.map Prod.snd)) :
    Leaves l t s s' .scope (scope.map Prod.snd)

/-- What happens when a panic with a text leaves layers, the innermost in front, until it comes out
in the run `r`, and which meters the layers involve. -/
inductive Unwinds (l : Logger) (t : String) (r : Run α) : Run α → List Layer → List Nat → Prop where
  /-- The panic has left all layers. -/
  | out : Unwinds l t r r [] []
  /-- The panic leaves the innermost layer, and from then on it leaves alone what is resolved. -/
  | leave {s s' : Run α} {layer : Layer} {layers : List Layer} {is js : List Nat}
    (hleaves : Leaves l t s s' layer is)
    (hkeeps : s'.world.KeepsResolved r.world)
    (h : Unwinds l t r s' layers js) : Unwinds l t r s (layer :: layers) (is ++ js)

theorem Leaves.keeps {t : String} {s s' : Run α} {layer : Layer} {is : List Nat}
    (h : Leaves l t s s' layer is) : s.world.KeepsResolved s'.world := by
  cases h with
  | kept _ hsame =>
    rw [hsame]
    exact .refl _
  | @failed i _ hopen htransits =>
    have hunresolved : ¬ s.world.IsResolved i := by
      rw [← isResolved_iff, hopen]
      nofun
    rw [htransits.world]
    exact keepsResolved_act hunresolved (.call _)
  | scope _ hdrops => exact hdrops.keeps

/-- The meters that a layer involves are resolved when a panic has left it. -/
theorem Leaves.isResolved {t : String} {s s' : Run α} {layer : Layer} {is : List Nat}
    (h : Leaves l t s s' layer is) : ∀ i ∈ is, s'.world.IsResolved i := by
  cases h with
  | kept hresolved hsame =>
    rw [hsame]
    exact List.forall_mem_singleton.mpr ((isResolved_iff s _).mp hresolved)
  | failed _ htransits houtcome =>
    refine List.forall_mem_singleton.mpr ⟨_, htransits.meter, ?_⟩
    rw [houtcome]
    rfl
  | scope _ hdrops => exact hdrops.isResolved

theorem Unwinds.keeps {t : String} {r s : Run α} {layers : List Layer} {is : List Nat}
    (h : Unwinds l t r s layers is) : s.world.KeepsResolved r.world := by
  cases h with
  | out => exact .refl _
  | leave hleaves hkeeps _ => exact hleaves.keeps.trans hkeeps

theorem Unwinds.isResolved {t : String} {r s : Run α} {layers : List Layer} {is : List Nat}
    (h : Unwinds l t r s layers is) : ∀ i ∈ is, r.world.IsResolved i := by
  induction h with
  | out => exact nofun
  | leave hleaves hkeeps _ ih =>
    exact List.forall_mem_append.mpr ⟨fun i hi => (hleaves.isResolved i hi).of_keeps hkeeps, ih⟩

/-! ## Inside of layers -/

/-- Whether a run is inside of layers that a panic passes: they have opened their scopes and started
their operations. -/
structure Inside (l : Logger) (w : World) (outers : List (List Nat)) (depth : Nat)
    (layers : List Layer) (r : Run α) : Prop where
  /-- The scopes are open, and the meters have their owners. -/
  balanced : Run.Balanced l w [] outers (depth + 1 + layers.count .scope) r
  /-- A panic passes each layer. -/
  passes : ∀ layer ∈ layers, layer.passesPanic = true
  /-- The operations of the executors are started. -/
  started : ∀ i, .executor i ∈ layers → r.isStarted i = true
  /-- Their meters are not those of other threads. -/
  others : ∀ i, .executor i ∈ layers → i ∉ outers.flatten

theorem scopes_ensureResolved (i : Nat) (c : Call) (r : Run α) :
    (r.ensureResolved l i c).scopes = r.scopes := by
  unfold ensureResolved
  split <;> rfl

theorem scopes_dropAll (unwinding : Bool) (scope : List Binding) (r : Run α) :
    (dropAll l unwinding scope r).scopes = r.scopes := by
  induction scope generalizing r with
  | nil => rfl
  | cons b scope ih => exact ih _

theorem extends_unwindLayer (payload : PanicPayload) (r : Run α) (layer : Layer) :
    Extends l r (r.unwindLayer l payload layer) := by
  cases layer with
  | executor i => exact extends_ensureResolved r i _
  | scope => exact extends_closeScope true r
  | catchPanic | thread => exact .refl r

section

variable {outers : List (List Nat)} {depth : Nat} {r : Run α} {layer : Layer} {layers : List Layer}

theorem Inside.of_balanced (h : Run.Balanced l w [] outers (depth + 1) r) :
    Inside l w outers depth [] r := by
  refine ⟨h, ?_, ?_, ?_⟩
  · intro layer hlayer
    cases hlayer
  · intro i hlayer
    cases hlayer
  · intro i hlayer
    cases hlayer

theorem Inside.withinExecutor (h : Inside l w outers depth layers r) {i : Nat}
    (hstarted : r.isStarted i = true) (hothers : i ∉ outers.flatten) :
    Inside l w outers depth (layers ++ [.executor i]) r := by
  have hbalanced := h.balanced
  have hcount : (layers ++ [Layer.executor i]).count .scope = layers.count .scope := by
    rw [List.count_append]
    rfl
  rw [← hcount] at hbalanced
  refine ⟨hbalanced, List.forall_mem_append.mpr ⟨h.passes, List.forall_mem_singleton.mpr rfl⟩,
    ?_, ?_⟩
  all_goals
    intro j hj
    rcases List.mem_append.mp hj with hj | hj
  · exact h.started j hj
  · cases List.mem_singleton.mp hj
    exact hstarted
  · exact h.others j hj
  · cases List.mem_singleton.mp hj
    exact hothers

theorem Inside.withinScope (h : Inside l w outers (depth + 1) layers r) :
    Inside l w outers depth (layers ++ [.scope]) r := by
  have hbalanced := h.balanced
  have hcount : depth + 1 + 1 + layers.count .scope =
      depth + 1 + (layers ++ [Layer.scope]).count .scope := by
    rw [List.count_append, List.count_singleton_self]
    omega
  rw [hcount] at hbalanced
  have hinner {i : Nat} (hi : Layer.executor i ∈ layers ++ [.scope]) : .executor i ∈ layers := by
    rcases List.mem_append.mp hi with hi | hi
    · exact hi
    · cases List.mem_singleton.mp hi
  exact ⟨hbalanced, List.forall_mem_append.mpr ⟨h.passes, List.forall_mem_singleton.mpr rfl⟩,
    fun i hi => h.started i (hinner hi), fun i hi => h.others i (hinner hi)⟩

variable (hw : w.Untouched)

include hw

theorem drops_dropAll {others : List Nat} (scope : List Binding)
    (h : Owns l w (scope.map Prod.snd ++ others) depth r) :
    Drops l.enabled (dropAll l true scope r).world r.world (scope.map Prod.snd) := by
  induction scope generalizing r with
  | nil => exact .done
  | cons b scope ih =>
    have hrest := ih ((h.drop true).record (.left b.1) none)
    have hlive : IsLive l.enabled w r.history b.2 := (h.mem_iff b.2).mp (by simp)
    obtain ⟨m, hm⟩ := hlive.exists_meter
    rw [← h.world] at hm
    cases hresolved : m.snapshot.outcome.isResolved with
    | true =>
      have hsound : r.world.Sound := h.world ▸ sound_acts l.enabled w hw r.history
      have hsame : ((r.act l (.drop true b.2)).record (.left b.1) none).world = r.world :=
        act_drop_of_resolved hsound hm hresolved true
      rw [hsame] at hrest
      exact .kept hm hresolved hrest
    | false =>
      obtain ⟨session, hsession⟩ := exists_session_of_owns hw h hm
      obtain ⟨m', hm', houtcome, hlog⟩ :=
        act_drop_of_open l.enabled hm hsession hresolved true
      exact .failed hm hresolved hm' houtcome hsession hlog hrest

/-- A panic that leaves the innermost layer does to its meters what it should. -/
theorem Inside.leaves (h : Inside l w outers depth (layer :: layers) r) (t : String) :
    ∃ is, Leaves l t r (r.unwindLayer l (.text t) layer) layer is := by
  cases layer with
  | executor i =>
    refine ⟨[i], ?_⟩
    cases hresolved : r.isResolved i with
    | true => exact .kept hresolved (ensureResolved_of_resolved l _ hresolved)
    | false =>
      obtain ⟨m, hm, hstarted⟩ := (isStarted_iff r i).mp (h.started i List.mem_cons_self)
      obtain ⟨m', htransits, houtcome⟩ := transits_ensureResolved hw h.balanced.owns hm hstarted
        (Bool.eq_false_iff.mp hresolved) (c := .failPath panicPath t) rfl
      have ht : Focus.terminal m'.snapshot = .fail := by rw [Focus.terminal, houtcome]
      rw [ht] at htransits
      exact .failed hresolved htransits houtcome (scopes_ensureResolved i _ r)
  | scope =>
    have howns := h.balanced.owns
    rw [List.count_cons_self, ← Nat.add_assoc] at howns
    obtain ⟨scope, scopes, hscopes⟩ := List.exists_cons_of_length_eq_add_one howns.depth
    have hclose : r.unwindLayer l (.text t) .scope = dropAll l true scope { r with scopes } := by
      simp only [unwindLayer, closeScope, hscopes, List.headD_cons, List.tail_cons]
    rw [hclose]
    refine ⟨scope.map Prod.snd, .scope ?_ ?_⟩
    · rw [hscopes, scopes_dropAll]
    · exact drops_dropAll hw scope (howns.giveScope hscopes)
  | catchPanic | thread => cases h.passes _ List.mem_cons_self

theorem Inside.unwindLayer (h : Inside l w outers depth (layer :: layers) r)
    (payload : PanicPayload) : Inside l w outers depth layers (r.unwindLayer l payload layer) := by
  have hextends := extends_unwindLayer (l := l) payload r layer
  refine ⟨?_, fun layer' hlayer => h.passes layer' (List.mem_cons_of_mem _ hlayer),
    fun i hi => hextends.isStarted (h.started i (List.mem_cons_of_mem _ hi)),
    fun i hi => h.others i (List.mem_cons_of_mem _ hi)⟩
  have hbalanced := h.balanced
  cases layer with
  | executor i =>
    have hne : Layer.executor i ≠ .scope := nofun
    rw [List.count_cons_of_ne hne] at hbalanced
    obtain ⟨m, hm, -⟩ := (isStarted_iff r i).mp (h.started i List.mem_cons_self)
    exact hbalanced.ensureResolved hw (List.getElem?_eq_some_iff.mp hm).1
      (h.others i List.mem_cons_self) _
  | scope =>
    rw [List.count_cons_self, ← Nat.add_assoc] at hbalanced
    exact hbalanced.closeScope hw true
  | catchPanic | thread => cases h.passes _ List.mem_cons_self

/-- A panic that comes out of the layers of a run has unwound them, and leaves the run balanced. -/
theorem Inside.unwind (h : Inside l w outers depth layers r) (t : String) :
    (∃ is, Unwinds l t (r.unwind l (.text t) layers) r layers is) ∧
      Run.Balanced l w [] outers (depth + 1) (r.unwind l (.text t) layers) := by
  induction layers generalizing r with
  | nil => exact ⟨⟨[], .out⟩, h.balanced⟩
  | cons layer layers ih =>
    obtain ⟨⟨js, hrest⟩, hbalanced⟩ := ih (h.unwindLayer hw (.text t))
    obtain ⟨is, hleaves⟩ := h.leaves hw t
    exact ⟨⟨is ++ js, .leave hleaves hrest.keeps hrest⟩, hbalanced⟩

/-- Where a step is reached within layers that a panic passes, the run is inside of them. -/
theorem Inside.of_reaches {step : Step α} {steps : List (Step α)} {s : Run α}
    (h : Reaches l step r steps s layers) (hpasses : ∀ layer ∈ layers, layer.passesPanic = true)
    (hs : Run.Balanced l w [] outers (depth + 1) s) : Inside l w outers depth layers r := by
  induction h generalizing depth with
  | here => exact .of_balanced hs
  | @later first steps s s' layers hfirst _ ih =>
    have hnext := balanced_run l w hw s hs first
    rw [hfirst] at hnext
    exact ih hpasses hnext
  | @execute name e body steps s i layers hi h ih =>
    have hinside := ih (fun layer hlayer => hpasses layer (List.mem_append_left _ hlayer))
      (hs.enterExecutor hi)
    have hheld := mem_held_of_find? hi
    have hm := List.getElem?_eq_getElem (hs.owns.lt_length hheld)
    have hentered : (s.enterExecutor l name i).isStarted i = true :=
      isStarted_ensureStarted hw hs.owns.world hm
    exact hinside.withinExecutor ((extends_of_reaches h).isStarted hentered)
      (hs.not_mem_outers hheld)
  | scope _ ih =>
    have hinside := ih (fun layer hlayer => hpasses layer (List.mem_append_left _ hlayer))
      hs.openScope
    exact hinside.withinScope
  | catchPanic => cases hpasses .catchPanic (List.mem_append_right _ (List.mem_singleton_self _))
  | thread => cases hpasses .thread (List.mem_append_right _ (List.mem_singleton_self _))

/-- What is resolved is not among the active meters of the thread. -/
theorem Balanced.of_isResolved (h : Run.Balanced l w [] outers depth r) {i : Nat}
    (hi : r.world.IsResolved i) : ∃ m, r.world.meters[i]? = some m ∧
      m.snapshot.outcome.isResolved = true ∧ m.active = false ∧
      (r.world.IsSolo → m.snapshot.fullId ∉ r.world.stack.ids) := by
  have hsound : r.world.Sound := h.owns.world ▸ sound_acts l.enabled w hw r.history
  obtain ⟨m, hm, hresolved⟩ := hi
  have hinactive : m.active = (m.snapshot.isStarted && !m.snapshot.outcome.isResolved) :=
    hsound.marked m (List.mem_of_getElem? hm)
  rw [hresolved, Bool.not_true, Bool.and_false] at hinactive
  refine ⟨m, hm, hresolved, hinactive, ?_⟩
  intro hsolo hmem
  -- Who holds the identity would be an active meter, and in one session there is no other.
  obtain ⟨j, -, hj⟩ := List.mem_filterMap.mp (h.balanced.running.mem_iff.mp hmem)
  obtain ⟨m', hm', hactive, hid⟩ := activeId?_eq_some_iff.mp hj
  obtain rfl := eq_of_fullId_eq hsound hsolo hm' hm hid
  obtain rfl := Option.some.inj (hm.symm.trans hm')
  cases hactive.symm.trans hinactive

end

end Run

open Run

theorem runSteps_singleton {α : Type} (l : Logger) (step : Step α) (r : Run α) :
    runSteps l [step] r = step.run l r := by
  simp only [runSteps]
  split <;> next h => rw [h]

/-- Wherever an executor runs in a script, with a closure in which more executors and scopes may be
nested in any way: when a panic with a text begins in the innermost of them, it comes out of the
executor as it is, after it has unwound all layers. The thread then holds the identities of those of
its meters that are active, and none of the meters that the layers involve is. -/
theorem panic_unwinds_executors {α : Type} (l : Logger) (steps : List (Step α)) (w : World)
    (hw : w.Untouched) {name : String} {e : Executor α} {body : List (Step α)} {t : String}
    {before inside : Run α} {around layers : List Layer}
    (h : Reaches l (.execute name e body) before steps { world := w } around)
    (hpanic : Reaches l (.panic (.text t)) inside [.execute name e body] before layers)
    (hlayers : ∀ layer ∈ layers, layer.passesPanic = true) :
    ∃ (after : Run α) (involved : List Nat),
      (Step.execute name e body).run l before = (after, .panicked (.text t)) ∧
      Unwinds l t after inside layers involved ∧
      after.world.stack.ids.Perm (after.world.activeIds after.held) ∧
      ∀ i ∈ involved, ∃ m, after.world.meters[i]? = some m ∧
        m.snapshot.outcome.isResolved = true ∧ m.active = false ∧
        (after.world.IsSolo → m.snapshot.fullId ∉ after.world.stack.ids) := by
  obtain ⟨outers, depth, hbalanced⟩ := h.balanced hw (balanced_start l hw)
  have hinside := Inside.of_reaches hw hpanic hlayers hbalanced
  obtain ⟨⟨involved, hunwinds⟩, hafter⟩ := hinside.unwind hw t
  have hrun := hpanic.runSteps_panic hlayers
  rw [runSteps_singleton] at hrun
  exact ⟨_, involved, hrun, hunwinds, hafter.balanced.running,
    fun i hi => Run.Balanced.of_isResolved hw hafter (hunwinds.isResolved i hi)⟩

/-- A closure that owns two meters and panics in the closure of one of them. -/
def nest : Step Unit :=
  .execute "a" .run [.scope [.create "b" "c" none, .create "d" "c" none,
    .execute "b" (.call (.ok ())) [.panic (.text "p")]]]

/-- The meter that nobody has started is dropped before the outer executor records its failure. -/
theorem panic_unwinds_executors_nested : ∃ before inside after : Run Unit,
    Reaches Logger.recorder nest before [.create "a" "c" none, nest]
      { world := { sessions := [{ id := "s" }] } } [] ∧
    Reaches Logger.recorder (.panic (.text "p")) inside [nest] before
      [.executor 1, .scope, .executor 0] ∧
    nest.run Logger.recorder before = (after, .panicked (.text "p")) ∧
    after.world.meters.map (·.snapshot.outcome) =
      [.fail "panic" (some "p"), .fail "panic" (some "p"),
        .fail "try-with-resources" (some "panicking")] := by
  let before := ((Step.create "a" "c" none).run Logger.recorder
    ({ world := { sessions := [{ id := "s" }] } } : Run Unit)).1
  have hreaches : Reaches Logger.recorder nest before [.create "a" "c" none, nest]
      { world := { sessions := [{ id := "s" }] } } [] := .later rfl .here
  have hpanic : Reaches Logger.recorder (.panic (.text "p")) _ [nest] before
      [.executor 1, .scope, .executor 0] :=
    .execute rfl (.scope (.later rfl (.later rfl (.execute (by decide +kernel) .here))))
  obtain ⟨after, -, hrun, -⟩ := panic_unwinds_executors Logger.recorder _ _
    ⟨rfl, rfl, rfl, by simp⟩ hreaches hpanic (by decide)
  refine ⟨before, _, after, hreaches, hpanic, hrun, ?_⟩
  have hafter : after = (nest.run Logger.recorder before).1 := congrArg Prod.fst hrun.symm
  rw [hafter]
  decide +kernel

end Metering
