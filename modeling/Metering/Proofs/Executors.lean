import Metering.Proofs.Diagnostics
import Metering.Proofs.Nesting
import Metering.Proofs.TypeName

/-!
# Proofs: what an executor does around its closure

An executor starts its operation if it was not started before, and resolves it if its closure has
left it open. Each of the two is a single call that is no misuse, so it logs the events of its
transition and nothing else. Apart from that an executor does nothing to the world: an operation
that is resolved when the closure returns is left alone.
-/

namespace Metering

namespace Executor

variable {α : Type}

/-- What the closure returns, if it returns anything. -/
def returned? : Executor α → Option (Returned α)
  | .run => none
  | .call result | .safeCall result | .callOrReject result _ => some result

/-- Whether an error of the closure is a rejection. -/
def rejects : Executor α → Bool
  | .callOrReject _ rejects => rejects
  | _ => false

/-- Whether an error of the closure becomes the cause of another one. -/
def wraps : Executor α → Bool
  | .safeCall _ => true
  | _ => false

/-- Whether an operation whose closure has left it open ends with an outcome, where `okPath` is the
path that was set last. -/
inductive EndsWith (e : Executor α) (okPath : Option String) : Outcome → Prop
  /-- Without an error it succeeds. -/
  | ok : (∀ f, e.returned? ≠ some (.err f)) → EndsWith e okPath (.ok okPath)
  /-- An error that is a rejection gives the short name of its type as the path. -/
  | reject {f : Failure} {short : String} : e.returned? = some (.err f) → e.rejects = true →
      IsShortName f.typeName short → EndsWith e okPath (.reject short)
  /-- Another error does so as well, and it is the message. -/
  | fail {f : Failure} {short : String} : e.returned? = some (.err f) → e.rejects = false →
      IsShortName f.typeName short → EndsWith e okPath (.fail short (some f.text))

theorem exists_outcome?_resolution (e : Executor α) (okPath : Option String) :
    ∃ outcome, e.resolution.outcome? okPath = some outcome ∧ e.EndsWith okPath outcome := by
  have hshort (f : Failure) : IsShortName f.typeName f.path := isShortName_iff.mpr rfl
  cases e with
  | run => exact ⟨_, rfl, .ok nofun⟩
  | call result | safeCall result =>
    cases result with
    | ok v => exact ⟨_, rfl, .ok fun f h => by cases h⟩
    | err f => exact ⟨_, rfl, .fail rfl rfl (hshort f)⟩
  | callOrReject result rejects =>
    cases result with
    | ok v => exact ⟨_, rfl, .ok fun f h => by cases h⟩
    | err f =>
      cases rejects with
      | false => exact ⟨_, rfl, .fail rfl rfl (hshort f)⟩
      | true => exact ⟨_, rfl, .reject rfl rfl (hshort f)⟩

theorem asks_iff (e : Executor α) (resolved : Bool) :
    e.asks resolved = true ↔
      (∃ f rejects, e = .callOrReject (.err f) rejects) ∧ resolved = false := by
  cases e with
  | run | call | safeCall => exact iff_of_false Bool.false_ne_true nofun
  | callOrReject result rejects =>
    cases result with
    | ok v => exact iff_of_false Bool.false_ne_true nofun
    | err f =>
      simp only [asks, Bool.not_eq_true']
      exact (and_iff_right ⟨f, rejects, rfl⟩).symm

theorem handed_of_ok {e : Executor α} {v : α} (h : e.returned? = some (.ok v)) :
    e.handed = .value v := by
  cases e with
  | run => cases h
  | call result | safeCall result | callOrReject result rejects =>
    obtain rfl := Option.some.inj h
    rfl

theorem handed_of_err {e : Executor α} {f : Failure} (h : e.returned? = some (.err f)) :
    e.handed = if e.wraps then .wrapped f else .error f := by
  cases e with
  | run => cases h
  | call result | safeCall result | callOrReject result rejects =>
    obtain rfl := Option.some.inj h
    rfl

end Executor

namespace World

/-- Whether a call that is no misuse leads from a world to another: it logs the events of its
transition and nothing else, and leaves the meter `m` behind. -/
structure Transits (enabled : Enabled) (w : World) (i : Nat) (c : Call) (t : Transition) (m : Meter)
    (w' : World) : Prop where
  /-- The call leads to the other world. -/
  world : w' = w.act enabled (.call i c)
  /-- It leaves the meter behind. -/
  meter : w'.meters[i]? = some m
  /-- It logs the events of its transition. -/
  log : ∃ session, w.sessions[m.session]? = some session ∧
    w'.log = w.log ++ Focus.transitionEvents (w.surroundings enabled session) t m.snapshot

section

variable (enabled : Enabled) {w : World} {i : Nat} {m : Meter} {session : Session}
  (hm : w.meters[i]? = some m) (hsession : w.sessions[m.session]? = some session) {t : Transition}

include hm hsession

/-- A deed that makes a transition logs the report on it and then the events of the transition. -/
theorem act_on_of_transition {d : Deed}
    (ht : d.transition? (w.surroundings enabled session) m = some t) :
    ∃ metrics m', m' = (d.change (w.surroundings enabled session) m).withMetrics metrics ∧
      (w.act enabled (d.on i)).meters[i]? = some m' ∧
      (w.act enabled (d.on i)).log = w.log ++ Focus.reports (d.misuse m.snapshot) m.snapshot ++
        Focus.transitionEvents (w.surroundings enabled session) t m'.snapshot := by
  obtain ⟨g, ⟨⟨metrics, hmeter⟩, hevents, -⟩, hg, hlog⟩ := act_on hm hsession enabled d
  rw [ht] at hevents
  refine ⟨metrics, g.meter, hmeter, hg, ?_⟩
  exact (hlog.trans (congrArg _ hevents)).trans (List.append_assoc _ _ _).symm

theorem transits_of_fit {c : Call} (hfit : Deed.misuse m.snapshot (.call c) = none)
    (ht : Deed.transition? (w.surroundings enabled session) m (.call c) = some t) :
    ∃ metrics, w.Transits enabled i c t
      ((Deed.change (w.surroundings enabled session) m (.call c)).withMetrics metrics)
      (w.act enabled (.call i c)) := by
  obtain ⟨metrics, m', rfl, hm', hlog⟩ := act_on_of_transition enabled hm hsession ht
  rw [hfit, Focus.reports, Option.map_none, Option.toList_none, List.append_nil] at hlog
  have hhome : (Deed.change (w.surroundings enabled session) m (.call c)).session = m.session :=
    Deed.session_change _ m _
  exact ⟨metrics, rfl, hm', session, hhome ▸ hsession, hlog⟩

end

end World

open World

namespace Run

variable {α : Type} {l : Logger} {w : World}

theorem ensureStarted_of_started (l : Logger) {r : Run α} {i : Nat} (h : r.isStarted i = true) :
    r.ensureStarted l i = r := if_pos h

theorem ensureResolved_of_resolved (l : Logger) {r : Run α} {i : Nat} (c : Call)
    (h : r.isResolved i = true) : r.ensureResolved l i c = r := if_pos h

theorem records_ensureResolved (i : Nat) (c : Call) (r : Run α) :
    (r.ensureResolved l i c).records = r.records := by
  unfold ensureResolved
  split <;> rfl

section

variable {r : Run α} (hw : w.Untouched) {others : List Nat} {depth : Nat}
  (h : Owns l w others depth r) {i : Nat} {m : Meter} (hm : r.world.meters[i]? = some m)

include hw h hm

theorem exists_session_of_owns : ∃ session, r.world.sessions[m.session]? = some session := by
  have hm' := hm
  rw [h.world] at hm' ⊢
  exact exists_session hw hm'

/-- The start of an executor. -/
theorem transits_ensureStarted (hunstarted : ¬ r.isStarted i = true) :
    ∃ m', r.world.Transits l.enabled i .start .started m' (r.ensureStarted l i).world := by
  obtain ⟨session, hsession⟩ := exists_session_of_owns hw h hm
  obtain ⟨metrics, htransits⟩ := transits_of_fit l.enabled hm hsession
    (misuse_start hm hunstarted) rfl
  rw [ensureStarted, if_neg hunstarted]
  exact ⟨_, htransits⟩

/-- The resolution of an operation that is still open, as an executor and a panic have it. -/
theorem transits_ensureResolved (hstarted : m.snapshot.isStarted = true)
    (hunresolved : ¬ r.isResolved i = true) {c : Call} {outcome : Outcome}
    (hc : c.outcome? (diaryOf i w.clock r.history).deeds.setPath? = some outcome) :
    ∃ m', r.world.Transits l.enabled i c (Focus.terminal m'.snapshot) m'
        (r.ensureResolved l i c).world ∧
      m'.snapshot.outcome = outcome := by
  have hmeters := hm
  rw [h.world] at hmeters
  obtain ⟨m₀, session, hsession, hfollows⟩ := h.orderly.exists_follows hw hmeters
  rw [← h.world] at hsession
  have houtcome : m.outcome? (.call c) = some outcome := by
    rw [Meter.outcome?, Deed.outcome?, hfollows.okPath]
    exact hc
  have hfit := misuse_resolution hw h.world hm hunresolved hstarted
    (Option.isSome_iff_exists.mpr ⟨outcome, hc⟩)
  obtain ⟨metrics, htransits⟩ := transits_of_fit l.enabled hm hsession hfit
    (Deed.transition?_of_outcome? houtcome)
  rw [Deed.change_of_outcome? houtcome] at htransits
  rw [ensureResolved, if_neg hunresolved]
  exact ⟨(m.resolved r.world.now outcome).withMetrics metrics, htransits, rfl⟩

/-- When an executor is done, its operation is resolved. -/
theorem isResolved_ensureResolved (hstarted : m.snapshot.isStarted = true) {c : Call}
    {outcome : Outcome}
    (hc : c.outcome? (diaryOf i w.clock r.history).deeds.setPath? = some outcome) :
    (r.ensureResolved l i c).isResolved i = true := by
  by_cases hresolved : r.isResolved i = true
  · rwa [ensureResolved_of_resolved l c hresolved]
  · obtain ⟨m', htransits, houtcome⟩ :=
      transits_ensureResolved hw h hm hstarted hresolved hc
    have hsettled := Call.isResolved_of_outcome? hc
    rw [← houtcome] at hsettled
    exact (isResolved_iff _ i).mpr ⟨m', htransits.meter, hsettled⟩

end

/-- What an executor does that runs as the operation of the meter `i` in the run `before`. Its
closure begins when the executor has entered it and ends in the run `left`, and then the executor
ends in the run `after`. -/
structure Contract (l : Logger) (w : World) (name : String) (e : Executor α) (body : List (Step α))
    (i : Nat) (before left after : Run α) : Prop where
  /-- An operation that was started before is not started again. -/
  continued : before.isStarted i = true → (before.enterExecutor l name i).world = before.world
  /-- Another one is started first. -/
  started : before.isStarted i = false → ∃ m,
    before.world.Transits l.enabled i .start .started m (before.enterExecutor l name i).world
  /-- An operation that the closure, or something before it, has resolved is left alone. -/
  kept : left.isResolved i = true → after.world = left.world
  /-- Another one is resolved by what the closure returns. -/
  resolved : left.isResolved i = false → ∃ m,
    left.world.Transits l.enabled i e.resolution (Focus.terminal m.snapshot) m after.world ∧
      e.EndsWith (diaryOf i w.clock left.history).deeds.setPath? m.snapshot.outcome
  /-- In any case the operation has been started and is resolved. -/
  ended : after.isStarted i = true ∧ after.isResolved i = true
  /-- The caller gets the value of the closure. -/
  value : ∀ v, e.returned? = some (.ok v) → e.handed = .value v
  /-- Or the caller gets its error, perhaps as the cause of another one. -/
  error : ∀ f, e.returned? = some (.err f) → e.handed = if e.wraps then .wrapped f else .error f
  /-- The predicate on errors was asked exactly if there was an outcome to choose by it. -/
  answer : ∃ record asked, after.records = left.records ++ [record] ∧
    record.occasion = .did (.execute name e body) (.finished e asked) ∧
      (asked = true ↔
        (∃ f rejects, e = .callOrReject (.err f) rejects) ∧ left.isResolved i = false)

end Run

open Run

/-- Wherever an executor runs in a script, with any closure that returns, it starts the operation if
it was not started, and resolves it if the closure has left it open; it does nothing else to the
world, whatever the closure does to this meter and to others. -/
theorem executor_contract {α : Type} (l : Logger) (steps : List (Step α)) (w : World)
    (hw : w.Untouched) {name : String} {e : Executor α} {body : List (Step α)}
    {before left : Run α} {layers : List Layer} {i : Nat}
    (h : Reaches l (.execute name e body) before steps { world := w } layers)
    (hi : before.find? name = some i)
    (hbody : runSteps l body (before.enterExecutor l name i) = (left, .returned)) :
    ∃ after, (Step.execute name e body).run l before = (after, .returned) ∧
      Contract l w name e body i before left after := by
  obtain ⟨outers, depth, hbalanced⟩ := h.balanced hw (balanced_start l hw)
  have howns := hbalanced.owns
  obtain ⟨m, hm⟩ : ∃ m, before.world.meters[i]? = some m :=
    ⟨_, List.getElem?_eq_getElem (howns.lt_length (mem_held_of_find? hi))⟩
  have hentered : (before.enterExecutor l name i).isStarted i = true :=
    isStarted_ensureStarted hw howns.world hm
  have hbalanced' := balanced_runSteps l w hw _ (hbalanced.enterExecutor hi) body
  have hextends := extends_runSteps l (before.enterExecutor l name i) body
  rw [hbody] at hbalanced' hextends
  have howns' := hbalanced'.owns
  have hstarted : left.isStarted i = true := hextends.isStarted hentered
  obtain ⟨m', hm', hstarted'⟩ := (isStarted_iff left i).mp hstarted
  have hremains := (extends_ensureResolved (l := l) left i e.resolution).isStarted hstarted
  obtain ⟨outcome, houtcome, hends⟩ :=
    e.exists_outcome?_resolution (diaryOf i w.clock left.history).deeds.setPath?
  refine ⟨(left.ensureResolved l i e.resolution).recordStep (.execute name e body)
    (.finished e (e.asks (left.isResolved i))) (some i), ?run, {
      continued := ?continued
      started := ?started
      kept := ?kept
      resolved := ?resolved
      ended := ⟨hremains, ?ended⟩
      value := fun _ => Executor.handed_of_ok
      error := fun _ => Executor.handed_of_err
      answer := ⟨_, _, congrArg (· ++ _) (records_ensureResolved i _ left), rfl,
        e.asks_iff _⟩ }⟩
  case run =>
    rw [enterExecutor] at hbody
    simp only [Step.run, hi, hbody, leaveExecutor]
  case continued =>
    intro hcontinued
    rw [enterExecutor, ensureStarted_of_started l hcontinued]
    rfl
  case started =>
    intro hunstarted
    exact transits_ensureStarted hw howns hm (Bool.eq_false_iff.mp hunstarted)
  case kept =>
    intro hkept
    rw [ensureResolved_of_resolved l e.resolution hkept]
    rfl
  case resolved =>
    intro hopen
    obtain ⟨m, htransits, rfl⟩ :=
      transits_ensureResolved hw howns' hm' hstarted' (Bool.eq_false_iff.mp hopen) houtcome
    exact ⟨m, htransits, hends⟩
  case ended =>
    exact isResolved_ensureResolved hw howns' hm' hstarted' houtcome

/-- Steps in which a meter is called in the closure of another one, and resolves that one before an
error of a type with an argument. -/
def called : Step Unit :=
  .execute "m" (.call (.err ⟨"a::Fault<u8>", "disk full"⟩)) [.call "m" (.setPath "p"), .call "n" .ok]

/-- The start was logged, and the path of the failure is the name of the type without the argument,
whatever path was set. -/
theorem executor_contract_generic_error : ∃ before left after : Run Unit,
    Reaches Logger.recorder called before
      [.create "n" "c" none, .create "m" "c" none, .execute "n" .run [called]]
      { world := { sessions := [{ id := "s" }] } } [.executor 0] ∧
    before.find? "m" = some 1 ∧
    runSteps Logger.recorder [.call "m" (.setPath "p"), .call "n" .ok]
      (before.enterExecutor Logger.recorder "m" 1) = (left, .returned) ∧
    called.run Logger.recorder before = (after, .returned) ∧
    ∃ m, after.world.meters[1]? = some m ∧
      m.snapshot.outcome = .fail "a::Fault" (some "disk full") := by
  have hreaches : Reaches Logger.recorder called _
      [.create "n" "c" none, .create "m" "c" none, .execute "n" .run [called]]
      { world := { sessions := [{ id := "s" }] } } [.executor 0] :=
    .later rfl (.later rfl (.execute rfl .here))
  obtain ⟨after, hrun, hcontract⟩ := executor_contract Logger.recorder _ _
    ⟨rfl, rfl, rfl, by simp⟩ hreaches rfl rfl
  refine ⟨_, _, after, hreaches, rfl, rfl, hrun, ?_⟩
  obtain ⟨m, htransits, hends⟩ := hcontract.resolved (by decide +kernel)
  refine ⟨m, htransits.meter, ?_⟩
  generalize m.snapshot.outcome = outcome at hends
  cases hends with
  | ok hnone => exact absurd rfl (hnone _)
  | reject _ hrejects => cases hrejects
  | fail hreturned _ hshort =>
    cases hreturned
    rw [← isShortName_iff.mp hshort]
    decide

end Metering
