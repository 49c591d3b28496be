import Metering.Proofs.Balance

/-!
# Proofs: steps inside steps

A step of a script is carried out within layers: the closures of executors, scopes, and threads,
which its surrounding steps open. A panic leaves these layers one after another, the innermost
first, until one stops it. What is known of a run at its beginning is known wherever a step is
reached.
-/

namespace Metering

/-- What a step can be carried out within. -/
inductive Layer where
  /-- The closure of an executor, run as the operation of a meter. -/
  | executor (i : Nat)
  /-- A scope. -/
  | scope
  /-- A scope that stops a panic. -/
  | catchPanic
  /-- A thread. -/
  | thread
  deriving DecidableEq

/-- Whether a panic goes on outside of a layer. -/
def Layer.passesPanic : Layer → Bool
  | .executor _ | .scope => true
  | .catchPanic | .thread => false

namespace Run

variable {α : Type}

/-- The run in which the closure of an executor begins. -/
def enterExecutor (l : Logger) (name : String) (i : Nat) (r : Run α) : Run α :=
  (r.ensureStarted l i).record (.entered name) none

/-- What happens when a panic leaves a layer. -/
def unwindLayer (l : Logger) (payload : PanicPayload) (r : Run α) : Layer → Run α
  | .executor i => r.ensureResolved l i (.failPath panicPath payload.message)
  | .scope => r.closeScope l true
  | .catchPanic | .thread => r

/-- What happens when a panic leaves layers, one after another. -/
def unwind (l : Logger) (payload : PanicPayload) (r : Run α) (layers : List Layer) : Run α :=
  layers.foldl (unwindLayer l payload) r

end Run

open Run

/-- Whether a run of steps from a state reaches a step in the state `r`, within the given layers,
the innermost in front. -/
inductive Reaches {α : Type} (l : Logger) (step : Step α) (r : Run α) :
    List (Step α) → Run α → List Layer → Prop where
  /-- The first step is the one. -/
  | here {steps : List (Step α)} : Reaches l step r (step :: steps) r []
  /-- The first step is carried out before. -/
  | later {first : Step α} {steps : List (Step α)} {s s' : Run α} {layers : List Layer}
    (hfirst : first.run l s = (s', .returned)) (h : Reaches l step r steps s' layers) :
    Reaches l step r (first :: steps) s layers
  /-- The step is in the closure of an executor. -/
  | execute {name : String} {e : Executor α} {body steps : List (Step α)} {s : Run α} {i : Nat}
    {layers : List Layer} (hi : s.find? name = some i)
    (h : Reaches l step r body (s.enterExecutor l name i) layers) :
    Reaches l step r (.execute name e body :: steps) s (layers ++ [.executor i])
  /-- The step is in a scope. -/
  | scope {body steps : List (Step α)} {s : Run α} {layers : List Layer}
    (h : Reaches l step r body s.openScope layers) :
    Reaches l step r (.scope body :: steps) s (layers ++ [.scope])
  /-- The step is in a scope that stops a panic. -/
  | catchPanic {body steps : List (Step α)} {s : Run α} {layers : List Layer}
    (h : Reaches l step r body s.openScope layers) :
    Reaches l step r (.catchPanic body :: steps) s (layers ++ [.catchPanic])
  /-- The step is on a thread. -/
  | thread {body steps : List (Step α)} {s : Run α} {layers : List Layer}
    (h : Reaches l step r body (s.enterThread l) layers) :
    Reaches l step r (.thread body :: steps) s (layers ++ [.thread])

section

variable {α : Type} {l : Logger} {w : World} {step : Step α} {r s : Run α} {steps : List (Step α)}
  {layers : List Layer}

theorem Run.Balanced.enterExecutor {outers : List (List Nat)} {depth : Nat}
    (h : Run.Balanced l w [] outers depth r) {name : String} {i : Nat}
    (hi : r.find? name = some i) :
    Run.Balanced l w [] outers depth (r.enterExecutor l name i) :=
  (h.ensureStarted (mem_held_of_find? hi)).record (.entered name) none

/-- Wherever a step is reached, the run owns its meters and its thread holds the active ones. -/
theorem Reaches.balanced (h : Reaches l step r steps s layers) (hw : w.Untouched)
    {outers : List (List Nat)} {depth : Nat} (hs : Run.Balanced l w [] outers (depth + 1) s) :
    ∃ outers' depth', Run.Balanced l w [] outers' (depth' + 1) r := by
  induction h generalizing outers depth with
  | here => exact ⟨outers, depth, hs⟩
  | @later first steps s s' layers hfirst _ ih =>
    have hnext := balanced_run l w hw s hs first
    rw [hfirst] at hnext
    exact ih hnext
  | execute hi _ ih => exact ih (hs.enterExecutor hi)
  | scope _ ih => exact ih hs.openScope
  | catchPanic _ ih => exact ih hs.openScope
  | thread _ ih => exact ih hs.enterThread

theorem extends_of_reaches (h : Reaches l step r steps s layers) : Extends l s r := by
  induction h with
  | here => exact .refl _
  | @later first steps s s' layers hfirst _ ih =>
    have hnext := extends_run l s first
    rw [hfirst] at hnext
    exact hnext.trans ih
  | @execute name e body steps s i layers _ _ ih =>
    exact ((extends_ensureStarted s i).trans (extends_of_eq _ _ rfl rfl)).trans ih
  | scope _ ih | catchPanic _ ih => exact (extends_of_eq _ _ rfl rfl).trans ih
  | thread _ ih => exact (extends_act _ _ .enterThread rfl rfl).trans ih

/-- A panic leaves the layers that it passes, and goes on with the same payload. -/
theorem Reaches.runSteps_panic {payload : PanicPayload}
    (h : Reaches l (.panic payload) r steps s layers)
    (hlayers : ∀ layer ∈ layers, layer.passesPanic = true) :
    runSteps l steps s = (r.unwind l payload layers, .panicked payload) := by
  induction h with
  | here => simp only [runSteps, Step.run, unwind, List.foldl_nil]
  | later hfirst _ ih =>
    simp only [runSteps, hfirst]
    exact ih hlayers
  | execute hi _ ih =>
    have hbody := ih fun layer hlayer => hlayers layer (List.mem_append_left _ hlayer)
    rw [enterExecutor] at hbody
    simp only [runSteps, Step.run, hi, hbody, leaveExecutor, unwind, List.foldl_append,
      List.foldl_cons, List.foldl_nil, unwindLayer]
  | scope _ ih =>
    have hbody := ih fun layer hlayer => hlayers layer (List.mem_append_left _ hlayer)
    simp only [runSteps, Step.run, hbody, leaveScope, unwind, List.foldl_append,
      List.foldl_cons, List.foldl_nil, unwindLayer]
  | catchPanic =>
    have hpasses := hlayers .catchPanic (List.mem_append_right _ (List.mem_singleton_self _))
    cases hpasses
  | thread =>
    have hpasses := hlayers .thread (List.mem_append_right _ (List.mem_singleton_self _))
    cases hpasses

end

mutual

/-- A step ends with a panic only if it reaches one within layers that the panic passes. -/
theorem exists_reaches_of_run {α : Type} {l : Logger} {payload : PanicPayload} {s s' : Run α} :
    (step : Step α) → step.run l s = (s', .panicked payload) → ∃ r layers,
      (∀ steps, Reaches l (.panic payload) r (step :: steps) s layers) ∧
        ∀ layer ∈ layers, layer.passesPanic = true
  | .execute name e body, h => by
    simp only [Step.run] at h
    split at h
    · cases h
    · next i hi =>
      cases hbody : runSteps l body (s.enterExecutor l name i) with
      | mk s'' ending =>
        rw [enterExecutor] at hbody
        rw [hbody] at h
        cases ending with
        | returned => cases h
        | panicked payload' =>
          cases h
          obtain ⟨r, layers, hreaches, hlayers⟩ := exists_reaches_of_runSteps body hbody
          refine ⟨r, layers ++ [.executor i], fun _ => .execute hi hreaches, ?_⟩
          exact List.forall_mem_append.mpr ⟨hlayers, List.forall_mem_singleton.mpr rfl⟩
  | .scope body, h => by
    simp only [Step.run] at h
    cases hbody : runSteps l body s.openScope with
    | mk s'' ending =>
      rw [hbody] at h
      cases ending with
      | returned => cases h
      | panicked payload' =>
        cases h
        obtain ⟨r, layers, hreaches, hlayers⟩ := exists_reaches_of_runSteps body hbody
        refine ⟨r, layers ++ [.scope], fun _ => .scope hreaches, ?_⟩
        exact List.forall_mem_append.mpr ⟨hlayers, List.forall_mem_singleton.mpr rfl⟩
  | .panic payload', h => by
    simp only [Step.run] at h
    cases h
    exact ⟨s, [], fun _ => .here, nofun⟩
  | .setClock _, h | .advance _, h | .setMetrics _, h | .useSession _, h | .create .., h
  | .createFor .., h | .catchPanic _, h | .thread _, h
  | .count _, h | .clear, h | .showConfig, h | .showId, h => by
    simp only [Step.run] at h
    cases h
  | .createPart .., h | .call .., h | .look _, h | .drop _, h => by
    simp only [Step.run] at h
    split at h <;> cases h

theorem exists_reaches_of_runSteps {α : Type} {l : Logger} {payload : PanicPayload}
    {s s' : Run α} : (steps : List (Step α)) → runSteps l steps s = (s', .panicked payload) →
      ∃ r layers, Reaches l (.panic payload) r steps s layers ∧
        ∀ layer ∈ layers, layer.passesPanic = true
  | [], h => by
    simp only [runSteps] at h
    cases h
  | step :: steps, h => by
    simp only [runSteps] at h
    split at h
    · next s'' hstep =>
      obtain ⟨r, layers, hreaches, hlayers⟩ := exists_reaches_of_runSteps steps h
      exact ⟨r, layers, .later hstep hreaches, hlayers⟩
    · next s'' payload' hstep =>
      cases h
      obtain ⟨r, layers, hreaches, hlayers⟩ := exists_reaches_of_run step hstep
      exact ⟨r, layers, hreaches steps, hlayers⟩

end

/-- Steps end with a panic exactly if they reach one within layers that it passes, and they end
where the panic has left these layers. -/
theorem runSteps_eq_panicked_iff {α : Type} {l : Logger} {payload : PanicPayload}
    {steps : List (Step α)} {s s' : Run α} :
    runSteps l steps s = (s', .panicked payload) ↔ ∃ r layers,
      Reaches l (.panic payload) r steps s layers ∧
        (∀ layer ∈ layers, layer.passesPanic = true) ∧ s' = r.unwind l payload layers := by
  constructor
  · intro h
    obtain ⟨r, layers, hreaches, hlayers⟩ := exists_reaches_of_runSteps steps h
    refine ⟨r, layers, hreaches, hlayers, ?_⟩
    exact congrArg Prod.fst (h.symm.trans (hreaches.runSteps_panic hlayers))
  · rintro ⟨r, layers, hreaches, hlayers, rfl⟩
    exact hreaches.runSteps_panic hlayers

end Metering
