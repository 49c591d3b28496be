import Metering.Proofs.World
import Metering.Script

/-!
# Proofs: scripts act through their history

Whatever control flow a script has, with closures, panics, scopes and threads, the world changes by
actions only, and the history of the run lists all of them in their order. So what holds after every
sequence of actions holds at every moment of every script.
-/

namespace Metering

namespace Run

variable {α : Type}

/-- Whether a run goes on from another one: what was added to the history is what has changed the
world. -/
def Extends (l : Logger) (r r' : Run α) : Prop :=
  ∃ as, r'.history = r.history ++ as ∧ r'.world = r.world.acts l.enabled as

variable {l : Logger}

theorem Extends.refl (r : Run α) : Extends l r r := ⟨[], (List.append_nil _).symm, rfl⟩

theorem Extends.trans {r r' r'' : Run α} (h : Extends l r r') (h' : Extends l r' r'') :
    Extends l r r'' := by
  obtain ⟨as, hhistory, hworld⟩ := h
  obtain ⟨bs, hhistory', hworld'⟩ := h'
  refine ⟨as ++ bs, ?_, ?_⟩
  · rw [hhistory', hhistory, List.append_assoc]
  · rw [hworld', hworld, World.acts_append]

theorem extends_act (r r' : Run α) (a : World.Action) (hworld : r'.world = r.world.act l.enabled a)
    (hhistory : r'.history = r.history ++ [a]) : Extends l r r' :=
  ⟨[a], hhistory, hworld⟩

/-- What neither acts nor adds to the history goes on from a run. -/
theorem extends_of_eq (r r' : Run α) (hworld : r'.world = r.world)
    (hhistory : r'.history = r.history) : Extends l r r' :=
  ⟨[], by rw [hhistory, List.append_nil], hworld⟩

theorem extends_recordStep (r : Run α) (step : Step α) (answer : Answer α) (meter : Option Nat) :
    Extends l r (r.recordStep step answer meter) := extends_of_eq _ _ rfl rfl

theorem extends_adopt (r : Run α) (name : String) (a : World.Action) :
    Extends l r (r.adopt l name a) := by
  refine extends_act _ _ a ?_ ?_
  all_goals
    simp only [adopt]
    split <;> rfl

theorem extends_ensureStarted (r : Run α) (i : Nat) : Extends l r (r.ensureStarted l i) := by
  unfold ensureStarted
  split
  · exact .refl r
  · exact extends_act _ _ _ rfl rfl

theorem extends_ensureResolved (r : Run α) (i : Nat) (c : Call) :
    Extends l r (r.ensureResolved l i c) := by
  unfold ensureResolved
  split
  · exact .refl r
  · exact extends_act _ _ _ rfl rfl

theorem extends_dropAll (unwinding : Bool) (scope : List Binding) (r : Run α) :
    Extends l r (dropAll l unwinding scope r) := by
  induction scope generalizing r with
  | nil => exact .refl r
  | cons b scope ih => exact (extends_act _ _ (.drop unwinding b.2) rfl rfl).trans (ih _)

theorem extends_closeScope (unwinding : Bool) (r : Run α) :
    Extends l r (r.closeScope l unwinding) :=
  (extends_of_eq r { r with scopes := r.scopes.tail } rfl rfl).trans (extends_dropAll _ _ _)

theorem extends_forget (r : Run α) : Extends l r (r.forget l) := by
  refine extends_of_eq _ _ ?_ ?_
  all_goals
    simp only [forget]
    split <;> rfl

theorem extends_leaveExecutor (i : Nat) (step : Step α) (e : Executor α) (p : Run α × Ending) :
    Extends l p.1 (leaveExecutor l i step e p).1 := by
  obtain ⟨r, ending⟩ := p
  cases ending with
  | returned => exact (extends_ensureResolved r i _).trans (extends_recordStep _ _ _ _)
  | panicked payload => exact extends_ensureResolved r i _

theorem extends_leaveScope (step : Step α) (p : Run α × Ending) :
    Extends l p.1 (leaveScope l step p).1 := by
  obtain ⟨r, ending⟩ := p
  cases ending with
  | returned => exact (extends_closeScope false r).trans (extends_recordStep _ _ _ _)
  | panicked payload => exact extends_closeScope true r

theorem extends_leaveCatch (step : Step α) (p : Run α × Ending) :
    Extends l p.1 (leaveCatch l step p).1 :=
  (extends_closeScope p.2.unwinding p.1).trans (extends_recordStep _ _ _ _)

theorem extends_leaveThread (step : Step α) (outer : Run α) (p : Run α × Ending) :
    Extends l p.1 (leaveThread l step outer p).1 :=
  (extends_closeScope p.2.unwinding p.1).trans <|
    (extends_act _ _ .leaveThread rfl rfl).trans (extends_of_eq _ _ rfl rfl)

end Run

open Run

mutual

theorem extends_run {α : Type} (l : Logger) (r : Run α) : (step : Step α) →
    Extends l r (step.run l r).1
  | .setClock nanos | .advance nanos | .setMetrics m => extends_act _ _ _ rfl rfl
  | .useSession k => extends_of_eq _ _ rfl rfl
  | .create name category operation =>
    (extends_adopt r name _).trans (extends_recordStep _ _ _ _)
  | .createFor name typeName => (extends_adopt r name _).trans (extends_recordStep _ _ _ _)
  | .createPart name partName newName => by
    simp only [Step.run]
    split
    · exact .refl r
    · exact (extends_adopt r newName _).trans (extends_recordStep _ _ _ _)
  | .call name c => by
    simp only [Step.run]
    split
    · exact .refl r
    · exact extends_act _ _ _ rfl rfl
  | .look name => by
    simp only [Step.run]
    split
    · exact .refl r
    · exact extends_recordStep _ _ _ _
  | .drop name => by
    simp only [Step.run]
    split
    · exact extends_recordStep _ _ _ _
    · exact extends_act _ _ _ rfl rfl
  | .execute name e body => by
    simp only [Step.run]
    split
    · exact .refl r
    · next i _ =>
      have henter : Extends l r ((r.ensureStarted l i).record (.entered name) none) :=
        (extends_ensureStarted r i).trans (extends_of_eq _ _ rfl rfl)
      exact henter.trans ((extends_runSteps l _ body).trans (extends_leaveExecutor i _ e _))
  | .panic payload => .refl r
  | .scope body =>
    (extends_of_eq r r.openScope rfl rfl).trans
      ((extends_runSteps l r.openScope body).trans (extends_leaveScope _ _))
  | .catchPanic body =>
    (extends_of_eq r r.openScope rfl rfl).trans
      ((extends_runSteps l r.openScope body).trans (extends_leaveCatch _ _))
  | .thread body =>
    (extends_act r (r.enterThread l) .enterThread rfl rfl).trans
      ((extends_runSteps l (r.enterThread l) body).trans (extends_leaveThread _ r _))
  | .count m | .showConfig | .showId => extends_recordStep _ _ _ _
  | .clear => (extends_forget r).trans (extends_recordStep _ _ _ _)

theorem extends_runSteps {α : Type} (l : Logger) (r : Run α) : (steps : List (Step α)) →
    Extends l r (runSteps l steps r).1
  | [] => .refl r
  | step :: steps => by
    have hstep := extends_run l r step
    simp only [runSteps]
    split
    · next r' h =>
      rw [h] at hstep
      exact hstep.trans (extends_runSteps l r' steps)
    · next r' payload h =>
      rw [h] at hstep
      exact hstep

end

/-- The world at the end of a script is what its history makes of the first one. -/
theorem world_runScript {α : Type} (l : Logger) (steps : List (Step α)) (w : World) :
    (runScript l steps w).1.world = w.acts l.enabled (runScript l steps w).1.history := by
  have hsteps := extends_runSteps l ({ world := w } : Run α) steps
  have hclose := extends_closeScope (l := l) (runSteps l steps { world := w }).2.unwinding
    (runSteps l steps { world := w }).1
  obtain ⟨as, hhistory, hworld⟩ := hsteps.trans hclose
  rw [List.nil_append] at hhistory
  rw [← hhistory] at hworld
  exact hworld

/-! ## Moments of a run -/

section

variable {α : Type} (l : Logger) (steps : List (Step α)) (w : World)

/-- The first `k` actions in the run of a script. -/
def historyAt (k : Nat) : List World.Action := (runScript l steps w).1.history.take k

/-- The world after the first `k` actions in the run of a script. -/
def worldAt (k : Nat) : World := w.acts l.enabled (historyAt l steps w k)

theorem historyAt_succ {k : Nat} {a : World.Action}
    (ha : (runScript l steps w).1.history[k]? = some a) :
    historyAt l steps w (k + 1) = historyAt l steps w k ++ [a] := by
  rw [historyAt, List.take_add_one, ha, historyAt]
  rfl

theorem worldAt_succ {k : Nat} {a : World.Action}
    (ha : (runScript l steps w).1.history[k]? = some a) :
    worldAt l steps w (k + 1) = (worldAt l steps w k).act l.enabled a := by
  rw [worldAt, historyAt_succ l steps w ha, World.acts_concat, worldAt]

/-- Any split of a history names the action that comes at some moment. -/
theorem historyAt_split {n : Nat} {before after : List World.Action} {a : World.Action}
    (h : historyAt l steps w n = before ++ a :: after) :
    before.length < n ∧ (runScript l steps w).1.history[before.length]? = some a ∧
      historyAt l steps w before.length = before := by
  have hlength := congrArg List.length h
  rw [historyAt, List.length_take, List.length_append, List.length_cons] at hlength
  have hlt : before.length < n := by omega
  refine ⟨hlt, ?_, ?_⟩
  · rw [← List.getElem?_take_of_lt hlt, ← historyAt, h,
      List.getElem?_append_right (Nat.le_refl _), Nat.sub_self]
    rfl
  · rw [historyAt, ← Nat.min_eq_left (Nat.le_of_lt hlt), ← List.take_take, ← historyAt, h,
      List.take_left]

/-- What follows a moment leads from there to the end of the run. -/
theorem acts_drop_worldAt (k : Nat) :
    (worldAt l steps w k).acts l.enabled ((runScript l steps w).1.history.drop k) =
      (runScript l steps w).1.world := by
  rw [worldAt, historyAt, ← World.acts_append, List.take_append_drop, world_runScript]

end

end Metering
