import Mathlib.Data.List.Induction
import Mathlib.Data.List.Perm.Basic
import Metering.Proofs.DistinctIds
import Metering.Proofs.StartOrder

/-!
# Proofs: every meter has one owner

A script knows a meter by one name in one scope, from its creation until it is dropped. So whatever
a script does to a meter, the meter was created before and has not been dropped, and once the script
has ended, every meter that was created has been dropped, at the end of its scope or earlier. This
holds whatever control flow there is: threads leave the meters of the ones that wait alone, and an
executor whose meter was dropped inside its closure finds the operation resolved.
-/

namespace Metering

namespace World

/-- Whether a meter was created and has not been dropped. -/
def IsLive (enabled : Enabled) (w : World) (as : List Action) (i : Nat) : Prop :=
  i < (w.acts enabled as).meters.length ∧ ∀ unwinding, .drop unwinding i ∉ as

/-- Whether all that happens is done to live meters. -/
inductive Orderly (enabled : Enabled) (w : World) : List Action → Prop
  /-- Nothing has happened. -/
  | nil : Orderly enabled w []
  /-- An action follows whose target is a live meter, if it has one. -/
  | concat {as : List Action} {a : Action} (h : Orderly enabled w as)
    (ha : ∀ i, a.target? = some i → IsLive enabled w as i) : Orderly enabled w (as ++ [a])

section

variable {enabled : Enabled} {w : World}

theorem Orderly.of_concat {as : List Action} {a : Action} (h : Orderly enabled w (as ++ [a])) :
    Orderly enabled w as ∧ ∀ i, a.target? = some i → IsLive enabled w as i := by
  generalize hbs : as ++ [a] = bs at h
  cases h with
  | nil => simp at hbs
  | concat h ha =>
    obtain ⟨rfl, hsame⟩ := List.append_inj' hbs rfl
    obtain rfl := List.singleton_inj.mp hsame
    exact ⟨h, ha⟩

theorem Orderly.of_append {as : List Action} (bs : List Action)
    (h : Orderly enabled w (as ++ bs)) : Orderly enabled w as := by
  induction bs using List.reverseRecOn with
  | nil => rwa [List.append_nil] at h
  | append_singleton bs b ih =>
    rw [← List.append_assoc] at h
    exact ih h.of_concat.1

/-- At the moment when something is done to a meter, the meter is live. -/
theorem Orderly.isLive {before after : List Action} {a : Action} {i : Nat}
    (h : Orderly enabled w (before ++ a :: after)) (ha : a.target? = some i) :
    IsLive enabled w before i := by
  have hsplit : before ++ a :: after = before ++ [a] ++ after := by simp
  rw [hsplit] at h
  exact (h.of_append after).of_concat.2 i ha

theorem IsLive.exists_meter {as : List Action} {i : Nat} (h : IsLive enabled w as i) :
    ∃ m, (w.acts enabled as).meters[i]? = some m :=
  ⟨_, List.getElem?_eq_getElem h.1⟩

theorem isLive_concat {as : List Action} {a : Action} {i : Nat} :
    IsLive enabled w (as ++ [a]) i ↔
      i < ((w.acts enabled as).act enabled a).meters.length ∧
        ∀ unwinding, .drop unwinding i ∉ as ∧ .drop unwinding i ≠ a := by
  simp only [IsLive, acts_concat, List.mem_append, List.mem_singleton, not_or, ne_eq]

/-- A meter that was dropped in an orderly way is resolved. -/
theorem Orderly.isResolved_of_drop (hw : w.Untouched) {as : List Action}
    (h : Orderly enabled w as) {unwinding : Bool} {i : Nat} (hdrop : .drop unwinding i ∈ as) :
    (w.acts enabled as).IsResolved i := by
  obtain ⟨before, after, rfl⟩ := List.append_of_mem hdrop
  have hlive := h.isLive (i := i) rfl
  exact WasDropped.isResolved hw ⟨before, unwinding, after, rfl, hlive.1⟩

theorem length_withMeter (enabled : Enabled) (w : World) (i : Nat)
    (act : Surroundings → Focus → Focus) :
    (w.withMeter enabled i act).meters.length = w.meters.length := by
  rcases withMeter_eq enabled w i act with h | ⟨m, session, -, -, h⟩
  · rw [h]
  · rw [h, affected, List.length_set]

theorem length_create (w : World) (k : Nat) (category : String) (operation parent : Option String)
    (context : Context) :
    (w.create k category operation parent context).meters.length = w.meters.length ∨
      (w.create k category operation parent context).meters.length = w.meters.length + 1 := by
  rcases create_eq w k category operation parent context with ⟨-, h⟩ | ⟨session, -, h⟩
  · exact Or.inl (by rw [h])
  · exact Or.inr (by rw [h, created, List.length_append, List.length_singleton])

/-- Whether an action may create a meter. -/
def Action.creates : Action → Bool
  | .create .. | .createPart .. => true
  | _ => false

theorem length_act (w : World) (a : Action) (ha : a.creates = false) :
    (w.act enabled a).meters.length = w.meters.length := by
  cases a with
  | setClock nanos | advance nanos | setMetrics m | enterThread => rfl
  | create k category operation | createPart i name => simp [Action.creates] at ha
  | call i c | drop unwinding i => exact length_withMeter enabled w i _
  | leaveThread =>
    simp only [act, leaveThread]
    split <;> rfl

theorem length_act_cases (enabled : Enabled) (w : World) (a : Action) :
    (w.act enabled a).meters.length = w.meters.length ∨
      (w.act enabled a).meters.length = w.meters.length + 1 := by
  cases ha : a.creates with
  | false => exact Or.inl (length_act w a ha)
  | true =>
    cases a with
    | create k category operation => exact length_create w k category operation none .empty
    | createPart i name =>
      simp only [act, createPart]
      split
      · exact Or.inl (length_withMeter enabled w i _)
      · next m _ =>
        rw [← length_withMeter enabled w i fun _ f =>
          f.report (f.snapshot.misuseOfPart name)]
        exact length_create _ _ _ _ _ _
    | _ => simp [Action.creates] at ha

theorem length_le_acts (enabled : Enabled) (w : World) (as : List Action) :
    w.meters.length ≤ (w.acts enabled as).meters.length := by
  obtain ⟨ps, hps⟩ := places_acts enabled w as
  have hlength := congrArg List.length hps
  simp only [places, List.length_map, List.length_append] at hlength
  omega

end

end World

open World

namespace Run

variable {α : Type}

/-- The meters that a run knows by name. -/
def held (r : Run α) : List Nat := r.scopes.flatten.map Prod.snd

/-- Whether a run owns the live meters, except for those that others own, and has done nothing to
any other meter. It has `depth` open scopes. -/
structure Owns (l : Logger) (w : World) (others : List Nat) (depth : Nat) (r : Run α) : Prop where
  /-- The world is what the history makes of the first one. -/
  world : r.world = w.acts l.enabled r.history
  /-- What was done was done to live meters. -/
  orderly : Orderly l.enabled w r.history
  /-- No meter has two names or two owners. -/
  nodup : (r.held ++ others).Nodup
  /-- The meters that have an owner are the live ones. -/
  mem_iff : ∀ i, i ∈ r.held ++ others ↔ IsLive l.enabled w r.history i
  /-- So many scopes are open. -/
  depth : r.scopes.length = depth

variable {l : Logger} {w : World} {others : List Nat} {depth : Nat} {r : Run α}

theorem Owns.of_perm (h : Owns l w others depth r) {r' : Run α} {others' : List Nat}
    {depth' : Nat} (hworld : r'.world = r.world) (hhistory : r'.history = r.history)
    (hperm : (r'.held ++ others').Perm (r.held ++ others)) (hdepth : r'.scopes.length = depth') :
    Owns l w others' depth' r' := by
  refine ⟨?_, ?_, hperm.nodup_iff.mpr h.nodup, ?_, hdepth⟩
  · rw [hworld, hhistory, h.world]
  · rw [hhistory]
    exact h.orderly
  · intro i
    rw [hperm.mem_iff, hhistory]
    exact h.mem_iff i

theorem Owns.record (h : Owns l w others depth r) (occasion : Occasion α) (meter : Option Nat) :
    Owns l w others depth (r.record occasion meter) :=
  ⟨h.world, h.orderly, h.nodup, h.mem_iff, h.depth⟩

theorem Owns.forget (h : Owns l w others depth r) : Owns l w others depth (r.forget l) := by
  simp only [Run.forget]
  split
  · exact ⟨h.world, h.orderly, h.nodup, h.mem_iff, h.depth⟩
  · exact h

theorem Owns.isLive (h : Owns l w others depth r) {i : Nat} (hi : i ∈ r.held) :
    IsLive l.enabled w r.history i :=
  (h.mem_iff i).mp (List.mem_append_left _ hi)

theorem Owns.lt_length (h : Owns l w others depth r) {i : Nat} (hi : i ∈ r.held) :
    i < r.world.meters.length := by
  rw [h.world]
  exact (h.isLive hi).1

/-- What creates and drops no meter changes no owner. -/
theorem Owns.act (h : Owns l w others depth r) (a : Action) (hcreates : a.creates = false)
    (hdrop : ∀ unwinding i, a ≠ .drop unwinding i)
    (htarget : ∀ i, a.target? = some i → IsLive l.enabled w r.history i) :
    Owns l w others depth (r.act l a) := by
  refine ⟨?_, h.orderly.concat htarget, h.nodup, ?_, h.depth⟩
  · simp only [Run.act, acts_concat, h.world]
  · intro i
    refine (h.mem_iff i).trans ?_
    rw [Run.act, isLive_concat, length_act _ a hcreates]
    constructor
    · rintro ⟨hlt, hnot⟩
      exact ⟨hlt, fun unwinding => ⟨hnot unwinding, (hdrop unwinding i).symm⟩⟩
    · rintro ⟨hlt, hnot⟩
      exact ⟨hlt, fun unwinding => (hnot unwinding).1⟩

theorem Owns.drop {i : Nat} (h : Owns l w (i :: others) depth r) (unwinding : Bool) :
    Owns l w others depth (r.act l (.drop unwinding i)) := by
  have hnodup : i ∉ r.held ++ others ∧ (r.held ++ others).Nodup := by
    rw [← List.nodup_cons, ← List.nodup_middle]
    exact h.nodup
  have hlive : IsLive l.enabled w r.history i := (h.mem_iff i).mp (by simp)
  refine ⟨?_, h.orderly.concat ?_, hnodup.2, ?_, h.depth⟩
  · simp only [Run.act, acts_concat, h.world]
  · intro j hj
    obtain rfl := Option.some.inj hj
    exact hlive
  · intro j
    have hmem := h.mem_iff j
    rw [List.perm_middle.mem_iff, List.mem_cons] at hmem
    rw [Run.act, isLive_concat, length_act _ (.drop unwinding i) rfl]
    constructor
    · intro hj
      obtain ⟨hlt, hnot⟩ := hmem.mp (Or.inr hj)
      refine ⟨hlt, fun unwinding' => ⟨hnot unwinding', ?_⟩⟩
      intro hsame
      cases hsame
      exact hnodup.1 hj
    · rintro ⟨hlt, hnot⟩
      rcases hmem.mpr ⟨hlt, fun unwinding' => (hnot unwinding').1⟩ with rfl | hj
      · exact absurd rfl (hnot unwinding).2
      · exact hj

theorem flatten_bind (b : Binding) (scopes : List (List Binding)) :
    (bind b scopes).flatten = b :: scopes.flatten := by
  cases scopes <;> rfl

theorem Owns.adopt (h : Owns l w others (depth + 1) r) (name : String) {a : Action}
    (hcreates : a.creates = true)
    (htarget : ∀ i, a.target? = some i → IsLive l.enabled w r.history i) :
    Owns l w others (depth + 1) (r.adopt l name a) := by
  have hdrop (unwinding : Bool) (i : Nat) : a ≠ .drop unwinding i := by
    rintro rfl
    cases hcreates
  have hworld : (r.act l a).world = w.acts l.enabled (r.act l a).history := by
    simp only [Run.act, acts_concat, h.world]
  have horderly : Orderly l.enabled w (r.act l a).history := h.orderly.concat htarget
  have hlive (i : Nat) : IsLive l.enabled w (r.act l a).history i ↔
      i < (r.act l a).world.meters.length ∧ ∀ unwinding, .drop unwinding i ∉ r.history := by
    have hlength : (r.act l a).world.meters.length =
        ((w.acts l.enabled r.history).act l.enabled a).meters.length := by
      rw [hworld, Run.act, acts_concat]
    rw [hlength, Run.act, isLive_concat]
    refine and_congr_right fun _ => forall_congr' fun unwinding => ?_
    exact and_iff_left (hdrop unwinding i).symm
  have hbefore (i : Nat) : i ∈ r.held ++ others ↔
      i < r.world.meters.length ∧ ∀ unwinding, .drop unwinding i ∉ r.history := by
    rw [h.mem_iff, IsLive, ← h.world]
  -- A session that does not exist makes no meter, and then there is none to own.
  simp only [Run.adopt]
  rcases length_act_cases l.enabled r.world a with hlength | hlength
  · have hsame : (r.act l a).world.meters.length = r.world.meters.length := hlength
    rw [if_neg (by omega)]
    refine ⟨hworld, horderly, h.nodup, ?_, h.depth⟩
    intro i
    rw [hlive, hsame]
    exact hbefore i
  · have hmore : (r.act l a).world.meters.length = r.world.meters.length + 1 := hlength
    rw [if_pos (by omega)]
    -- The number of the new meter has not been used before.
    have hnew : r.world.meters.length ∉ r.held ++ others := by
      rw [hbefore]
      exact fun hold => absurd hold.1 (lt_irrefl _)
    have hundropped (unwinding : Bool) :
        .drop unwinding r.world.meters.length ∉ r.history := by
      intro hmem
      obtain ⟨before, after, hsplit⟩ := List.append_of_mem hmem
      have horderly := h.orderly
      rw [hsplit] at horderly
      have hlt := (horderly.isLive (i := r.world.meters.length) rfl).1
      have hle := length_le_acts l.enabled (w.acts l.enabled before)
        (.drop unwinding r.world.meters.length :: after)
      rw [← acts_append, ← hsplit, ← h.world] at hle
      omega
    have hheld : held { r.act l a with
        scopes := bind (name, r.world.meters.length) (r.act l a).scopes } =
          r.world.meters.length :: r.held := by
      simp only [held, flatten_bind, List.map_cons]
      rfl
    refine ⟨hworld, horderly, ?_, ?_, ?_⟩
    · rw [hheld, List.cons_append, List.nodup_cons]
      exact ⟨hnew, h.nodup⟩
    · intro i
      rw [hheld, List.cons_append, List.mem_cons, hbefore, hlive, hmore]
      constructor
      · rintro (rfl | ⟨hlt, hnot⟩)
        · exact ⟨by omega, hundropped⟩
        · exact ⟨by omega, hnot⟩
      · rintro ⟨hlt, hnot⟩
        by_cases hi : i = r.world.meters.length
        · exact Or.inl hi
        · exact Or.inr ⟨by omega, hnot⟩
    · have hdepth := h.depth
      cases hscopes : r.scopes with
      | nil => simp [hscopes] at hdepth
      | cons scope scopes =>
        simp only [Run.act, hscopes, bind, List.length_cons]
        simpa [hscopes] using hdepth

/-! ## Names -/

theorem mem_held_of_find? {name : String} {i : Nat} (h : r.find? name = some i) : i ∈ r.held := by
  obtain ⟨before, after, hscopes, -⟩ := List.lookup_eq_some_iff.mp h
  rw [held, hscopes]
  simp

/-- A meter whose name is forgotten in a scope was the newest one of that name there. -/
theorem perm_unbind {name : String} {i : Nat} {scope : List Binding}
    (h : scope.lookup name = some i) :
    (scope.map Prod.snd).Perm (i :: (unbind name scope).map Prod.snd) := by
  obtain ⟨before, after, rfl, hbefore⟩ := List.lookup_eq_some_iff.mp h
  have hnone : ∀ b ∈ before, ¬ (b.1 == name) = true := by
    intro b hb hsame
    have := hbefore b hb
    rw [bne_iff_ne] at this
    exact this (beq_iff_eq.mp hsame).symm
  rw [unbind, List.eraseP_append_right _ hnone, List.eraseP_cons_of_pos (by simp)]
  simp only [List.map_append, List.map_cons]
  exact List.perm_middle

theorem perm_unbindScopes {name : String} {i : Nat} {scopes : List (List Binding)}
    (h : scopes.flatten.lookup name = some i) :
    (scopes.flatten.map Prod.snd).Perm (i :: (unbindScopes name scopes).flatten.map Prod.snd) := by
  induction scopes with
  | nil => cases h
  | cons scope scopes ih =>
    rw [List.flatten_cons, List.lookup_append] at h
    rw [List.flatten_cons, List.map_append, unbindScopes]
    cases hscope : scope.lookup name with
    | some j =>
      rw [hscope, Option.some_or] at h
      obtain rfl := Option.some.inj h
      have hany : scope.any (·.1 == name) = true := by
        obtain ⟨before, after, rfl, -⟩ := List.lookup_eq_some_iff.mp hscope
        simp
      rw [if_pos hany, List.flatten_cons, List.map_append]
      exact (perm_unbind hscope).append_right _
    | none =>
      rw [hscope, Option.none_or] at h
      have hany : ¬ scope.any (·.1 == name) = true := by
        rw [List.any_eq_true]
        rintro ⟨b, hb, hsame⟩
        have := List.lookup_eq_none_iff.mp hscope b hb
        rw [bne_iff_ne] at this
        exact this (beq_iff_eq.mp hsame).symm
      rw [if_neg hany, List.flatten_cons, List.map_append]
      exact ((ih h).append_left _).trans List.perm_middle

theorem length_unbindScopes (name : String) (scopes : List (List Binding)) :
    (unbindScopes name scopes).length = scopes.length := by
  induction scopes with
  | nil => rfl
  | cons scope scopes ih =>
    rw [unbindScopes]
    split
    · rfl
    · rw [List.length_cons, ih, List.length_cons]

theorem Owns.dropNamed (h : Owns l w others depth r) {name : String} {i : Nat}
    (hi : r.find? name = some i) (unwinding : Bool) :
    Owns l w others depth
      { r.act l (.drop unwinding i) with scopes := unbindScopes name r.scopes } := by
  -- First the run gives the meter away with its name, and then it drops what others own.
  have hgiven : Owns l w (i :: others) depth { r with scopes := unbindScopes name r.scopes } := by
    refine h.of_perm rfl rfl ?_ ?_
    · refine List.perm_middle.trans ?_
      rw [← List.cons_append]
      exact (perm_unbindScopes hi).symm.append_right others
    · rw [length_unbindScopes, h.depth]
  exact hgiven.drop unwinding

/-! ## Scopes and threads -/

theorem Owns.dropAll (unwinding : Bool) (scope : List Binding) {r : Run α}
    (h : Owns l w (scope.map Prod.snd ++ others) depth r) :
    Owns l w others depth (dropAll l unwinding scope r) := by
  induction scope generalizing r with
  | nil => exact h
  | cons b scope ih => exact ih ((h.drop unwinding).record (.left b.1) none)

theorem Owns.openScope (h : Owns l w others depth r) : Owns l w others (depth + 1) r.openScope :=
  h.of_perm rfl rfl (.refl _) (by rw [Run.openScope, List.length_cons, h.depth])

/-- A run can give away the meters of its innermost scope together with the scope. -/
theorem Owns.giveScope (h : Owns l w others (depth + 1) r) {scope : List Binding}
    {scopes : List (List Binding)} (hscopes : r.scopes = scope :: scopes) :
    Owns l w (scope.map Prod.snd ++ others) depth { r with scopes } := by
  refine h.of_perm rfl rfl ?_ ?_
  · simp only [held, hscopes, List.flatten_cons, List.map_append, List.append_assoc]
    exact List.perm_append_comm_assoc _ _ _
  · have hdepth := h.depth
    rw [hscopes, List.length_cons] at hdepth
    exact Nat.succ.inj hdepth

theorem Owns.closeScope (h : Owns l w others (depth + 1) r) (unwinding : Bool) :
    Owns l w others depth (r.closeScope l unwinding) := by
  obtain ⟨scope, scopes, hscopes⟩ := List.exists_cons_of_length_eq_add_one h.depth
  simp only [Run.closeScope, hscopes, List.headD_cons, List.tail_cons]
  exact (h.giveScope hscopes).dropAll unwinding scope

/-- A thread owns no meters at first; those of the thread that waits are owned by others. -/
theorem Owns.enterThread (h : Owns l w others depth r) :
    Owns l w (r.held ++ others) 1 (r.enterThread l) :=
  (h.act .enterThread rfl nofun nofun).of_perm rfl rfl (.refl _) rfl

theorem Owns.leaveThread {outer : Run α} {p : Run α × Ending} (step : Step α)
    (h : Owns l w (outer.held ++ others) 1 p.1) (houter : outer.scopes.length = depth) :
    Owns l w others depth (leaveThread l step outer p).1 := by
  have hclosed := (h.closeScope p.2.unwinding).act .leaveThread rfl nofun nofun
  have hnone : held ((p.1.closeScope l p.2.unwinding).act l .leaveThread) = [] := by
    rw [held, List.eq_nil_of_length_eq_zero hclosed.depth]
    rfl
  have hback : Owns l w others depth
      { (p.1.closeScope l p.2.unwinding).act l .leaveThread with
        scopes := outer.scopes, session := outer.session } := by
    refine hclosed.of_perm rfl rfl ?_ houter
    rw [hnone]
    exact .refl _
  exact hback.record _ none

theorem Owns.leaveScope {p : Run α × Ending} (step : Step α) (h : Owns l w others (depth + 1) p.1) :
    Owns l w others depth (leaveScope l step p).1 := by
  obtain ⟨r, ending⟩ := p
  cases ending with
  | returned => exact (h.closeScope false).record _ none
  | panicked payload => exact h.closeScope true

/-! ## Executors -/

theorem any_snapshot?_iff (w : World) (i : Nat) (p : Snapshot → Bool) :
    (w.snapshot? i).any p = true ↔ ∃ m, w.meters[i]? = some m ∧ p m.snapshot = true := by
  simp only [World.snapshot?, Option.any_eq_true, Option.map_eq_some_iff]
  constructor
  · rintro ⟨s, ⟨m, hm, rfl⟩, hp⟩
    exact ⟨m, hm, hp⟩
  · rintro ⟨m, hm, hp⟩
    exact ⟨_, ⟨m, hm, rfl⟩, hp⟩

theorem isResolved_iff (r : Run α) (i : Nat) : r.isResolved i = true ↔ r.world.IsResolved i :=
  any_snapshot?_iff r.world i _

theorem Owns.ensureStarted (h : Owns l w others depth r) {i : Nat} (hi : i ∈ r.held) :
    Owns l w others depth (r.ensureStarted l i) := by
  unfold Run.ensureStarted
  split
  · exact h
  · refine h.act (.call i .start) rfl nofun ?_
    intro j hj
    obtain rfl := Option.some.inj hj
    exact h.isLive hi

/-- A meter that was dropped is resolved, so one that is not resolved is live. -/
theorem Owns.isLive_of_unresolved (h : Owns l w others depth r) (hw : w.Untouched) {i : Nat}
    (hi : i < r.world.meters.length) (hunresolved : ¬ r.isResolved i = true) :
    IsLive l.enabled w r.history i := by
  refine ⟨h.world ▸ hi, fun unwinding hdrop => hunresolved ?_⟩
  rw [isResolved_iff, h.world]
  exact h.orderly.isResolved_of_drop hw hdrop

/-- An executor resolves an operation only if its meter is live. -/
theorem Owns.ensureResolved (h : Owns l w others depth r) (hw : w.Untouched) {i : Nat}
    (hi : i < r.world.meters.length) (c : Call) :
    Owns l w others depth (r.ensureResolved l i c) := by
  unfold Run.ensureResolved
  split
  · exact h
  · next hunresolved =>
    refine h.act (.call i c) rfl nofun ?_
    intro j hj
    obtain rfl := Option.some.inj hj
    exact h.isLive_of_unresolved hw hi hunresolved

theorem Owns.leaveExecutor {p : Run α × Ending} (hw : w.Untouched) {i : Nat} (step : Step α)
    (e : Executor α) (h : Owns l w others depth p.1) (hi : i < p.1.world.meters.length) :
    Owns l w others depth (leaveExecutor l i step e p).1 := by
  obtain ⟨r, ending⟩ := p
  cases ending with
  | returned => exact (h.ensureResolved hw hi e.resolution).record _ _
  | panicked payload => exact h.ensureResolved hw hi _

theorem Extends.lt_length {r r' : Run α} (h : Extends l r r') {i : Nat}
    (hi : i < r.world.meters.length) : i < r'.world.meters.length := by
  obtain ⟨as, -, hworld⟩ := h
  rw [hworld]
  exact lt_of_lt_of_le hi (length_le_acts _ _ as)

end Run

open Run

mutual

theorem owns_run {α : Type} (l : Logger) (w : World) (hw : w.Untouched) {others : List Nat}
    {depth : Nat} (r : Run α) (h : Owns l w others (depth + 1) r) :
    (step : Step α) → Owns l w others (depth + 1) (step.run l r).1
  | .setClock nanos => h.act (.setClock nanos) rfl nofun nofun
  | .advance nanos => h.act (.advance nanos) rfl nofun nofun
  | .setMetrics m => h.act (.setMetrics m) rfl nofun nofun
  | .useSession k => h.of_perm rfl rfl (.refl _) h.depth
  | .create name category operation => by
    have hadopt := h.adopt name (a := .create r.session category operation) rfl nofun
    exact hadopt.record _ _
  | .createFor name typeName => by
    have hadopt := h.adopt name (a := .create r.session typeName none) rfl nofun
    exact hadopt.record _ _
  | .createPart name partName newName => by
    simp only [Step.run]
    split
    · exact h
    · next i hi =>
      refine (h.adopt newName rfl ?_).record _ _
      intro j hj
      obtain rfl := Option.some.inj hj
      exact h.isLive (mem_held_of_find? hi)
  | .call name c => by
    simp only [Step.run]
    split
    · exact h
    · next i hi =>
      refine (h.act (.call i c) rfl nofun ?_).record _ _
      intro j hj
      obtain rfl := Option.some.inj hj
      exact h.isLive (mem_held_of_find? hi)
  | .look name => by
    simp only [Step.run]
    split
    · exact h
    · exact h.record _ _
  | .drop name => by
    simp only [Step.run]
    split
    · exact h.record _ _
    · next i hi => exact (h.dropNamed hi false).record _ _
  | .execute name e body => by
    simp only [Step.run]
    split
    · exact h
    · next i hi =>
      have henter := (h.ensureStarted (mem_held_of_find? hi)).record (.entered name) none
      have hbody := owns_runSteps l w hw _ henter body
      refine hbody.leaveExecutor hw _ e ?_
      have hextends : Extends l r ((r.ensureStarted l i).record (.entered name) none) :=
        (extends_ensureStarted r i).trans (extends_of_eq _ _ rfl rfl)
      exact (hextends.trans (extends_runSteps l _ body)).lt_length
        (h.lt_length (mem_held_of_find? hi))
  | .panic payload => h
  | .scope body => (owns_runSteps l w hw _ h.openScope body).leaveScope _
  | .catchPanic body =>
    ((owns_runSteps l w hw _ h.openScope body).closeScope _).record _ none
  | .thread body => (owns_runSteps l w hw _ h.enterThread body).leaveThread _ h.depth
  | .count m | .showConfig | .showId => h.record _ none
  | .clear => h.forget.record _ none

theorem owns_runSteps {α : Type} (l : Logger) (w : World) (hw : w.Untouched) {others : List Nat}
    {depth : Nat} (r : Run α) (h : Owns l w others (depth + 1) r) :
    (steps : List (Step α)) → Owns l w others (depth + 1) (runSteps l steps r).1
  | [] => h
  | step :: steps => by
    have hstep := owns_run l w hw r h step
    simp only [runSteps]
    split
    · next r' hr =>
      rw [hr] at hstep
      exact owns_runSteps l w hw r' hstep steps
    · next r' payload hr =>
      rw [hr] at hstep
      exact hstep

end

section

variable {α : Type} (l : Logger) (steps : List (Step α)) {w : World} (hw : w.Untouched)

include hw

theorem owns_runScript : Owns l w [] 0 (runScript l steps w).1 := by
  have hstart : Owns l w [] 1 ({ world := w } : Run α) := by
    refine ⟨rfl, .nil, List.nodup_nil, ?_, rfl⟩
    intro i
    simp [held, IsLive, acts, hw.meters]
  exact (owns_runSteps l w hw _ hstart steps).closeScope _

theorem orderly_historyAt (k : Nat) : Orderly l.enabled w (historyAt l steps w k) := by
  have horderly := (owns_runScript l steps hw).orderly
  rw [← List.take_append_drop k (runScript l steps w).1.history] at horderly
  exact horderly.of_append _

/-- Every meter that a script creates is dropped before its end. -/
theorem exists_drop_of_runScript {i : Nat}
    (hi : i < (runScript l steps w).1.world.meters.length) :
    ∃ unwinding, .drop unwinding i ∈ (runScript l steps w).1.history := by
  have howns := owns_runScript l steps hw
  have hnone : (runScript l steps w).1.held = [] := by
    rw [held, List.eq_nil_of_length_eq_zero howns.depth]
    rfl
  have hdead : ¬ IsLive l.enabled w (runScript l steps w).1.history i := by
    rw [← howns.mem_iff, hnone]
    exact List.not_mem_nil
  by_contra hnever
  push Not at hnever
  exact hdead ⟨howns.world ▸ hi, hnever⟩

end

end Metering
