import Metering.Proofs.OwnHistory
import Metering.Proofs.StartOrder

/-!
# Proofs: the innermost active meter

A thread knows its active meters by their identities only, and meters of different sessions can
share one. A meter that becomes inactive takes out the last occurrence of its identity, which is
that of another meter if one with the same identity was started later. So the identities stand in
the order of the first starts as long as no meter becomes inactive in this way above an active meter
with another identity, and from then on they do not.
-/

namespace Metering

namespace World

/-- Whether an action leaves a meter active that has a later one with its identity, and one with
another identity in between. -/
def LeavesInTurn (enabled : Enabled) (w : World) (order : List Nat) (a : Action) : Prop :=
  ∀ i p j id x, [i, p, j].Sublist order → w.activeId? i = some id → w.activeId? p = some x →
    w.activeId? j = some id → x ≠ id → (w.act enabled a).activeId? i = some id

section

variable {enabled : Enabled} {w : World} {order : List Nat}

theorem Holds.create (h : w.Holds order) (k : Nat) (category : String)
    (operation parent : Option String) (context : Context) :
    (w.create k category operation parent context).Holds order := by
  rcases create_eq w k category operation parent context with ⟨-, heq⟩ | ⟨session, -, heq⟩
  · rwa [heq]
  · rw [heq]
    exact h.created k session category operation parent context

/-- A report leaves the meters and the running thread alone. -/
theorem withMeter_report (enabled : Enabled) (w : World) (i : Nat)
    (misuse : Snapshot → Option Misuse) :
    (w.withMeter enabled i fun _ f => f.report (misuse f.snapshot)).meters = w.meters ∧
      (w.withMeter enabled i fun _ f => f.report (misuse f.snapshot)).stack = w.stack := by
  rcases withMeter_eq enabled w i fun _ f => f.report (misuse f.snapshot) with
    h | ⟨m, session, hm, -, h⟩
  · rw [h]
    exact ⟨rfl, rfl⟩
  · obtain ⟨hlt, rfl⟩ := List.getElem?_eq_some_iff.mp hm
    rw [h, affected, Focus.meter_report, Focus.report_eq]
    exact ⟨List.set_getElem_self hlt, rfl⟩

/-! ## One action -/

/-- What leaves the active ones active keeps their order, or ends it for another reason. -/
theorem LeavesInTurn.of_forall {a : Action}
    (h : ∀ i id, w.activeId? i = some id → (w.act enabled a).activeId? i = some id) :
    w.LeavesInTurn enabled order a :=
  fun i _ _ id _ _ hi _ _ _ => h i id hi

theorem holds_of_affected_iff (hw : w.Sound) (horder : w.Ordered order) (h : w.Holds order)
    {a : Action} {i : Nat} {m : Meter} {session : Session} {t : Option Transition} {g : Focus}
    (hm : w.meters[i]? = some m)
    (heffect : Focus.Effect (w.surroundings enabled session) ⟨m, w.stack, []⟩ t g)
    (ht : t ≠ some .started) (hact : w.act enabled a = w.affected i g) :
    (w.act enabled a).Holds order ↔ w.LeavesInTurn enabled order a := by
  have hid := Meter.fullId_eq_of_place heffect.meter_change.place_eq
  rw [hact, holds_affected_iff h horder.nodup (horder.mem_of_active hw hm) hm heffect ht,
    LeavesInTurn, hact]
  constructor
  · intro hturn i' p j id x hsublist hi hp hj hne
    by_cases hii' : i = i'
    · subst hii'
      obtain ⟨m', hm', hactive, rfl⟩ := activeId?_eq_some_iff.mp hi
      obtain rfl := Option.some.inj (hm.symm.trans hm')
      cases hafter : g.meter.active with
      | false => exact absurd (hturn hactive hafter p j x hsublist hp hj) hne
      | true =>
        rw [activeId?_affected_self hm, hafter, hid]
        rfl
    · rwa [activeId?_affected_ne hii']
  · intro hturn hactive hafter p j x hsublist hp hj
    by_contra hne
    have hi : w.activeId? i = some m.snapshot.fullId :=
      activeId?_eq_some_iff.mpr ⟨m, hm, hactive, rfl⟩
    have hstill := hturn i p j _ x hsublist hi hp hj hne
    rw [activeId?_affected_self hm, hafter] at hstill
    cases hstill

theorem holds_withMeter_iff (hw : w.Sound) (horder : w.Ordered order) (h : w.Holds order)
    {a : Action} {i : Nat} {act : Surroundings → Focus → Focus}
    (hact : w.act enabled a = w.withMeter enabled i act)
    (heffect : ∀ around f, ∃ t, Focus.Effect around f t (act around f) ∧ t ≠ some .started) :
    (w.act enabled a).Holds order ↔ w.LeavesInTurn enabled order a := by
  rcases withMeter_eq enabled w i act with hsame | ⟨m, session, hm, -, haffected⟩
  · have hsame := hact.trans hsame
    refine iff_of_true ?_ (.of_forall ?_)
    · rwa [hsame]
    · rw [hsame]
      exact fun _ _ => id
  · obtain ⟨t, heffect, ht⟩ := heffect (w.surroundings enabled session) ⟨m, w.stack, []⟩
    exact holds_of_affected_iff hw horder h hm heffect ht (hact.trans haffected)

/-- A start makes no meter inactive. -/
theorem activeId?_start {i j : Nat} {m : Meter} {session : Session} {id : String}
    (hm : w.meters[i]? = some m) (hid : w.activeId? j = some id) :
    (w.affected i
      (Focus.start (w.surroundings enabled session) ⟨m, w.stack, []⟩)).activeId? j = some id := by
  by_cases hij : i = j
  · subst hij
    obtain ⟨m', hm', hactive, rfl⟩ := activeId?_eq_some_iff.mp hid
    obtain rfl := Option.some.inj (hm.symm.trans hm')
    have heffect : Focus.Effect (w.surroundings enabled session) ⟨m, w.stack, []⟩ _ _ := .start
    obtain ⟨metrics, hmeter⟩ := Focus.meter_start (w.surroundings enabled session) ⟨m, w.stack, []⟩
    have hafter : (Focus.start (w.surroundings enabled session) ⟨m, w.stack, []⟩).meter.active =
        true := by
      simp [hmeter, Meter.withMetrics, Meter.started, hactive]
    rw [activeId?_affected_self hm, hafter, if_pos rfl,
      Meter.fullId_eq_of_place heffect.meter_change.place_eq]
  · rwa [activeId?_affected_ne hij]

/-- An action keeps the identities in the order of the first starts exactly if the meters leave in
turn. -/
theorem holds_act_iff (hw : w.Sound) (horder : w.Ordered order) (h : w.Holds order) (a : Action)
    (ha : a.switchesThread = false) :
    (w.act enabled a).Holds (w.noteStart order a) ↔ w.LeavesInTurn enabled order a := by
  cases a with
  | setClock nanos | advance nanos | setMetrics m =>
    exact iff_of_true (h.of_eq rfl rfl) (.of_forall fun _ _ => id)
  | create k category operation =>
    refine iff_of_true (h.create k category operation none .empty) (.of_forall ?_)
    intro i id hid
    rwa [act, activeId?_create]
  | createPart i name =>
    obtain ⟨hmeters, hstack⟩ := withMeter_report enabled w i (·.misuseOfPart name)
    have hreported := h.of_eq hmeters hstack
    have hid : (w.act enabled (.createPart i name)).activeId? = w.activeId? := by
      have hsame : (w.withMeter enabled i fun _ f =>
          f.report (f.snapshot.misuseOfPart name)).activeId? = w.activeId? := by
        funext j
        rw [activeId?, hmeters, activeId?]
      simp only [act, createPart]
      split
      · exact hsame
      · rw [activeId?_create, hsame]
    refine iff_of_true ?_ (.of_forall ?_)
    · simp only [act, createPart]
      split
      · exact hreported
      · exact hreported.create _ _ _ _ _
    · rw [hid]
      exact fun _ _ => id
  | call i c =>
    by_cases hc : c = .start
    · subst hc
      cases hm : w.meters[i]? with
      | none =>
        have hlt : ¬ i < w.meters.length := by simpa using hm
        have hsame : w.act enabled (.call i .start) = w := by simp [act, World.call, withMeter, hm]
        have hsameOrder : w.noteStart order (.call i .start) = order := by simp [noteStart, hlt]
        rw [hsameOrder]
        refine iff_of_true (hsame.symm ▸ h) (.of_forall ?_)
        rw [hsame]
        exact fun _ _ => id
      | some m =>
        have hsession := hw.hasSessions m (List.mem_of_getElem? hm)
        have hact : w.act enabled (.call i .start) = w.affected i _ :=
          withMeter_of_getElem? enabled w i (fun around f => f.perform around .start) hm
            (List.getElem?_eq_getElem hsession)
        refine iff_of_true ?_ (.of_forall ?_)
        · rw [hact]
          exact holds_start hw horder h hm
        · intro j id hid
          rw [hact]
          exact activeId?_start hm hid
    · have hsameOrder : w.noteStart order (.call i c) = order := by
        cases c <;> first | rfl | exact absurd rfl hc
      rw [hsameOrder]
      exact holds_withMeter_iff hw horder h rfl fun around f => Focus.perform_effect around f c hc
  | drop unwinding i =>
    exact holds_withMeter_iff hw horder h rfl fun around f => Focus.drop_effect around f unwinding
  | enterThread | leaveThread => cases ha

theorem startOrder_concat (as : List Action) (a : Action) :
    w.startOrder enabled order (as ++ [a]) =
      (w.acts enabled as).noteStart (w.startOrder enabled order as) a := by
  induction as generalizing w order with
  | nil => rfl
  | cons b as ih => exact ih

end

end World

open World

/-! ## The moments of a script -/

section

variable {α : Type} (l : Logger) (steps : List (Step α)) (w : World)

/-- The meters in the order of their first start, after the first `k` actions in the run of a
script. -/
def startOrderAt (k : Nat) : List Nat := w.startOrder l.enabled [] (historyAt l steps w k)

theorem startOrderAt_succ {k : Nat} {a : Action}
    (ha : (runScript l steps w).1.history[k]? = some a) :
    startOrderAt l steps w (k + 1) =
      (worldAt l steps w k).noteStart (startOrderAt l steps w k) a := by
  rw [startOrderAt, historyAt_succ l steps w ha, startOrder_concat]
  rfl

theorem historyAt_succ_of_none {k : Nat} (hk : (runScript l steps w).1.history[k]? = none) :
    historyAt l steps w (k + 1) = historyAt l steps w k := by
  rw [historyAt, List.take_add_one, hk, historyAt, Option.toList_none, List.append_nil]

/-- Whether up to a moment every meter that became inactive left in turn. -/
def MetersLeaveInTurn (n : Nat) : Prop :=
  ∀ k < n, ∀ a, (runScript l steps w).1.history[k]? = some a →
    (worldAt l steps w k).LeavesInTurn l.enabled (startOrderAt l steps w k) a

variable {l steps w}

theorem mem_historyAt_of_le {k n : Nat} (hk : k ≤ n) {a : Action}
    (ha : a ∈ historyAt l steps w k) : a ∈ historyAt l steps w n :=
  (List.take_sublist_take_left hk).subset ha

variable {n : Nat} (hw : w.Untouched)
  (hthread : ∀ a ∈ historyAt l steps w n, a.switchesThread = false)

include hw hthread

theorem holds_succ_iff {k : Nat} (hk : k < n)
    (h : (worldAt l steps w k).Holds (startOrderAt l steps w k)) :
    (worldAt l steps w (k + 1)).Holds (startOrderAt l steps w (k + 1)) ↔
      ∀ a, (runScript l steps w).1.history[k]? = some a →
        (worldAt l steps w k).LeavesInTurn l.enabled (startOrderAt l steps w k) a := by
  cases ha : (runScript l steps w).1.history[k]? with
  | none =>
    have hsame := historyAt_succ_of_none l steps w ha
    rw [worldAt, startOrderAt, hsame]
    refine iff_of_true h ?_
    intro a hnone
    cases hnone
  | some a =>
    have hswitch : a.switchesThread = false := by
      apply hthread a
      apply mem_historyAt_of_le hk
      rw [historyAt_succ l steps w ha]
      exact List.mem_concat_self
    have horder := ordered_acts l.enabled w hw (historyAt l steps w k)
      fun b hb => hthread b (mem_historyAt_of_le hk.le hb)
    have hsound : (worldAt l steps w k).Sound := sound_acts l.enabled w hw _
    replace horder : (worldAt l steps w k).Ordered (startOrderAt l steps w k) := horder
    rw [worldAt_succ l steps w ha, startOrderAt_succ l steps w ha,
      holds_act_iff hsound horder h a hswitch]
    constructor
    · intro hturn b hb
      obtain rfl := Option.some.inj hb
      exact hturn
    · intro hturn
      exact hturn a rfl

/-- Up to any moment a thread has held the identities in the order of the first starts exactly if
the meters left in turn. -/
theorem forall_holds_iff :
    MetersLeaveInTurn l steps w n ↔
      ∀ k ≤ n, (worldAt l steps w k).Holds (startOrderAt l steps w k) := by
  constructor
  · intro h k
    induction k with
    | zero =>
      intro _
      simp [Holds, worldAt, startOrderAt, historyAt, acts, startOrder, hw.stack, activeIds]
    | succ k ih =>
      intro hk
      exact (holds_succ_iff hw hthread hk (ih (Nat.le_of_succ_le hk))).mpr (h k hk)
  · intro h k hk
    exact (holds_succ_iff hw hthread hk (h k hk.le)).mp (h (k + 1) hk)

end

/-- As long as a script stays on one thread, with meters of any sessions, no meter is the current
one exactly if none is active, and otherwise an active one has the current identity. The thread has
held the identities of the active meters in the order of their first start at all moments so far
exactly if the meters that became inactive left in turn, and then the current one is the one whose
first start is the latest. A meter that is created without a parent has the current one as its
parent. -/
theorem innermost_active_meter {α : Type} (l : Logger) (steps : List (Step α)) (w : World)
    (hw : w.Untouched) (n : Nat)
    (hthread : ∀ a ∈ historyAt l steps w n, a.switchesThread = false) :
    ((worldAt l steps w n).stack.current = none ↔
        ∀ m ∈ (worldAt l steps w n).meters, m.active = false) ∧
      (∀ id, (worldAt l steps w n).stack.current = some id →
        ∃ m ∈ (worldAt l steps w n).meters, m.active = true ∧ m.snapshot.fullId = id) ∧
      (MetersLeaveInTurn l steps w n ↔
        ∀ k ≤ n, (worldAt l steps w k).stack.ids.reverse =
          (worldAt l steps w k).activeIds (startOrderAt l steps w k)) ∧
      (MetersLeaveInTurn l steps w n → (worldAt l steps w n).stack.current =
        ((worldAt l steps w n).activeIds (startOrderAt l steps w n)).getLast?) ∧
      (∀ k category operation m,
        (runScript l steps w).1.history[n]? = some (.create k category operation) →
        (worldAt l steps w (n + 1)).meters[(worldAt l steps w n).meters.length]? = some m →
        m.snapshot.parent = (worldAt l steps w n).stack.current) := by
  have hcounted : (worldAt l steps w n).Counted := by
    apply counted_acts l.enabled w _ hthread
    intro id
    simp [hw.stack, hw.meters]
  refine ⟨?_, ?_, forall_holds_iff hw hthread, ?_, ?_⟩
  · rw [← hcounted.ids_eq_nil_iff]
    exact List.head?_eq_none_iff
  · intro id hid
    have hpos : 0 < (worldAt l steps w n).stack.ids.count id :=
      List.count_pos_iff.mpr (List.mem_of_mem_head? hid)
    rw [hcounted id] at hpos
    obtain ⟨m, hm, hactive⟩ := List.countP_pos_iff.mp hpos
    rw [activeAs, Bool.and_eq_true, beq_iff_eq] at hactive
    exact ⟨m, hm, hactive⟩
  · intro hturn
    have hholds := (forall_holds_iff hw hthread).mp hturn n le_rfl
    rw [← hholds, List.getLast?_reverse]
    rfl
  · intro k category operation m ha hm
    rw [worldAt_succ l steps w ha] at hm
    cases newborn_of_act hm with
    | create category operation hsession => rfl

/-- Two sessions whose meters have the same identity, with another meter started in between. -/
def rivals (rest : List (Step Unit)) : List (Step Unit) :=
  [.create "a" "c" none, .call "a" .start, .useSession 1, .create "b" "x" none, .call "b" .start,
    .create "d" "c" none, .call "d" .start] ++ rest

/-- Where the meter that was started last is resolved first, the one that was started before it is
the current one and the parent of a new meter. -/
theorem innermost_active_meter_last_first :
    ∃ m, (worldAt Logger.recorder (rivals [.call "d" .ok, .create "e" "y" none])
        { sessions := [{ id := "s" }, { id := "t" }] } 8).meters[3]? = some m ∧
      m.snapshot.parent = some "x#1" := by
  obtain ⟨-, -, hturn, hlast, hparent⟩ := innermost_active_meter Logger.recorder
    (rivals [.call "d" .ok, .create "e" "y" none]) { sessions := [{ id := "s" }, { id := "t" }] }
    ⟨rfl, rfl, rfl, by simp⟩ 7 (by decide +kernel)
  refine ⟨_, rfl, (hparent 1 "y" none _ rfl rfl).trans ?_⟩
  exact (hlast (hturn.mpr (by decide +kernel))).trans (by decide +kernel)

/-- The current meter is not always the active one that was started last: with the first of the
meters that have the same identity resolved, the one in between counts as the innermost, and becomes
the parent of a new one. -/
theorem not_latest_start :
    ¬ ∀ (l : Logger) (steps : List (Step Unit)) (w : World) (n : Nat), w.Untouched →
        (∀ a ∈ historyAt l steps w n, a.switchesThread = false) →
        (worldAt l steps w n).stack.current =
          ((worldAt l steps w n).activeIds (startOrderAt l steps w n)).getLast? := by
  intro h
  have hcurrent := h Logger.recorder (rivals [.call "a" .ok])
    { sessions := [{ id := "s" }, { id := "t" }] } 7 ⟨rfl, rfl, rfl, by simp⟩ (by decide +kernel)
  revert hcurrent
  decide +kernel

end Metering
