import Mathlib.Data.List.Nodup
import Metering.Proofs.Active

/-!
# Proofs: the order of first starts

The meters of a world in the order in which they were first started. Where all of them come from one
session, the identities tell them apart, and the running thread holds the identities of the active
ones in this order: a start puts a new one at the end, starting again moves nothing, and a
resolution takes out the right one.
-/

namespace Metering

/-! ## Taking out an entry of a list -/

section

variable {α : Type} {a : α} {l front back : List α}

theorem append_singleton_eq_cons_iff : l ++ [a] = a :: l ↔ ∀ x ∈ l, x = a := by
  induction l with
  | nil => simp
  | cons b l ih =>
    rw [List.cons_append, List.cons.injEq, List.forall_mem_cons]
    constructor
    · rintro ⟨rfl, h⟩
      exact ⟨rfl, ih.mp h⟩
    · rintro ⟨rfl, h⟩
      exact ⟨rfl, ih.mpr h⟩

theorem cons_sublist_cons_of_ne {b : α} (h : a ≠ b) {l' : List α} :
    (a :: l').Sublist (b :: l) ↔ (a :: l').Sublist l := by
  simp [List.cons_sublist_cons', h]

theorem cons_sublist_middle_iff (h : a ∉ front) :
    (a :: l).Sublist (front ++ a :: back) ↔ l.Sublist back := by
  induction front with
  | nil => exact List.cons_sublist_cons
  | cons b front ih =>
    obtain ⟨hne, hfront⟩ := List.ne_and_not_mem_of_not_mem_cons h
    rw [List.cons_append, cons_sublist_cons_of_ne hne, ih hfront]

theorem pair_sublist_filterMap_iff {β : Type} {f : α → Option β} {x y : β} :
    [x, y].Sublist (l.filterMap f) ↔ ∃ p j, [p, j].Sublist l ∧ f p = some x ∧ f j = some y := by
  constructor
  · intro h
    obtain ⟨r, r', hsplit, hx, hy⟩ := List.cons_sublist_iff.mp h
    obtain ⟨l₁, l₂, rfl, rfl, rfl⟩ := List.filterMap_eq_append_iff.mp hsplit
    obtain ⟨p, hp, hpx⟩ := List.mem_filterMap.mp hx
    obtain ⟨j, hj, hjy⟩ := List.mem_filterMap.mp (List.singleton_sublist.mp hy)
    exact ⟨p, j, (List.singleton_sublist.mpr hp).append (List.singleton_sublist.mpr hj), hpx, hjy⟩
  · rintro ⟨p, j, h, hp, hj⟩
    simpa [hp, hj] using h.filterMap f

variable [DecidableEq α]

theorem erase_append_singleton_eq_iff (h : a ∈ l) :
    l.erase a ++ [a] = l ↔ ∀ x, [a, x].Sublist l → x = a := by
  induction l with
  | nil => cases h
  | cons b l ih =>
    by_cases hb : a = b
    · subst hb
      simp only [List.erase_cons_head, append_singleton_eq_cons_iff, List.cons_sublist_cons,
        List.singleton_sublist]
    · have hmem : a ∈ l := (List.mem_cons.mp h).resolve_left hb
      rw [List.erase_cons_tail (by simpa using Ne.symm hb), List.cons_append, List.cons_inj_right,
        ih hmem]
      simp only [cons_sublist_cons_of_ne hb]

/-- Taking out the last occurrence of an entry is taking out a given one, if nothing but this entry
comes between them. -/
theorem reverse_erase_middle_iff :
    ((front ++ a :: back).reverse.erase a).reverse = front ++ back ↔
      ∀ x, [x, a].Sublist back → x = a := by
  have hreverse (x : α) : [x, a].Sublist back ↔ [a, x].Sublist back.reverse := by
    rw [← List.reverse_sublist]
    rfl
  rw [List.reverse_eq_iff, List.reverse_append, List.reverse_append, List.reverse_cons,
    List.append_assoc, List.singleton_append]
  simp only [hreverse]
  by_cases h : a ∈ back.reverse
  · rw [← erase_append_singleton_eq_iff h, List.erase_append_left _ h, ← List.singleton_append,
      ← List.append_assoc, List.append_left_inj]
  · rw [List.erase_append_right _ h, List.erase_cons_head]
    refine iff_of_true rfl ?_
    intro x hx
    exact absurd (hx.subset List.mem_cons_self) h

end

end Metering

namespace Metering.World

/-! ## First starts -/

/-- The meters in the order of their first start, after one more action. -/
def noteStart (w : World) (order : List Nat) : Action → List Nat
  | .call i .start => if i < w.meters.length ∧ i ∉ order then order ++ [i] else order
  | _ => order

/-- The meters in the order of their first start, after further actions. -/
def startOrder (enabled : Enabled) : World → List Nat → List Action → List Nat
  | _, order, [] => order
  | w, order, a :: as => startOrder enabled (w.act enabled a) (w.noteStart order a) as

/-- The identity of a meter, if it is active. -/
def activeId? (w : World) (i : Nat) : Option String :=
  w.meters[i]?.bind fun m => if m.active then some m.snapshot.fullId else none

/-- The identities of those of some meters that are active. -/
def activeIds (w : World) (order : List Nat) : List String := order.filterMap w.activeId?

/-- Whether all meters come from one session, which can number them. -/
def IsSolo (w : World) : Prop :=
  (∃ k, ∀ m ∈ w.meters, m.session = k) ∧ w.meters.length < 2 ^ 64

theorem activeId?_eq_some_iff {w : World} {i : Nat} {id : String} :
    w.activeId? i = some id ↔
      ∃ m, w.meters[i]? = some m ∧ m.active = true ∧ m.snapshot.fullId = id := by
  unfold activeId?
  cases w.meters[i]? with
  | none => simp
  | some m => cases hactive : m.active <;> simp [hactive]

/-- In a single session no two meters have the same identity. -/
theorem eq_of_fullId_eq {w : World} (hw : w.Sound) (hsolo : w.IsSolo) {i j : Nat} {m m' : Meter}
    (hm : w.meters[i]? = some m) (hm' : w.meters[j]? = some m')
    (hid : m.snapshot.fullId = m'.snapshot.fullId) : i = j := by
  obtain ⟨⟨k, hk⟩, hlength⟩ := hsolo
  have hpopulation : w.population k < 2 ^ 64 := lt_of_le_of_lt List.countP_le_length hlength
  by_contra hij
  exact (hw.numbered k hpopulation).fullId_ne hm hm' (hk m (List.mem_of_getElem? hm))
    (hk m' (List.mem_of_getElem? hm')) hij hid

theorem activeId?_inj {w : World} (hw : w.Sound) (hsolo : w.IsSolo) {i j : Nat} {id : String}
    (hi : w.activeId? i = some id) (hj : w.activeId? j = some id) : i = j := by
  obtain ⟨m, hm, -, hid⟩ := activeId?_eq_some_iff.mp hi
  obtain ⟨m', hm', -, hid'⟩ := activeId?_eq_some_iff.mp hj
  exact eq_of_fullId_eq hw hsolo hm hm' (hid.trans hid'.symm)

theorem nodup_activeIds {w : World} (hw : w.Sound) (hsolo : w.IsSolo) {order : List Nat}
    (horder : order.Nodup) : (w.activeIds order).Nodup :=
  List.Nodup.filterMap (fun _ _ _ hi hj => activeId?_inj hw hsolo hi hj) horder

/-! ## What one change does to the order -/

/-- Whether the running thread holds the identities of the active ones of some meters, the last one
on top. -/
def Holds (w : World) (order : List Nat) : Prop := w.stack.ids.reverse = w.activeIds order

/-- Whether a list of meters is the order of first starts, and the running thread holds the active
ones in it. -/
structure Ordered (w : World) (order : List Nat) : Prop where
  /-- No meter is started first twice. -/
  nodup : order.Nodup
  /-- The meters in the order are those that were started. -/
  mem_iff : ∀ i, i ∈ order ↔ ∃ m, w.meters[i]? = some m ∧ m.snapshot.isStarted = true
  /-- In a single session the thread holds the active ones in this order, the last one on top. -/
  ids : w.IsSolo → w.Holds order

theorem Ordered.mem_of_active {w : World} {order : List Nat} (h : w.Ordered order) (hw : w.Sound)
    {i : Nat} {m : Meter} (hm : w.meters[i]? = some m) (hactive : m.active = true) : i ∈ order := by
  have hmarked : m.active = (m.snapshot.isStarted && !m.snapshot.outcome.isResolved) :=
    hw.marked m (List.mem_of_getElem? hm)
  rw [hactive, eq_comm, Bool.and_eq_true] at hmarked
  exact (h.mem_iff i).mpr ⟨m, hm, hmarked.1⟩

section Affected

variable {enabled : Enabled} {w : World} {i : Nat} {m : Meter} {session : Session}
  {t : Option Transition} {g : Focus}

theorem activeId?_affected_ne {j : Nat} (hij : i ≠ j) :
    (w.affected i g).activeId? j = w.activeId? j := by
  rw [activeId?, affected, List.getElem?_set_ne hij, activeId?]

theorem activeId?_affected_self (hm : w.meters[i]? = some m) :
    (w.affected i g).activeId? i =
      if g.meter.active then some g.meter.snapshot.fullId else none := by
  rw [activeId?, affected, List.getElem?_set_self (List.getElem?_eq_some_iff.mp hm).1]
  rfl

theorem isSolo_of_affected (hm : w.meters[i]? = some m) (hsession : g.meter.session = m.session)
    (hsolo : (w.affected i g).IsSolo) : w.IsSolo := by
  obtain ⟨⟨k, hk⟩, hlength⟩ := hsolo
  refine ⟨⟨k, ?_⟩, by simpa [affected] using hlength⟩
  intro m' hm'
  obtain ⟨j, hj⟩ := List.mem_iff_getElem?.mp hm'
  by_cases hij : i = j
  · subst hij
    obtain rfl : m' = m := Option.some.inj (hj.symm.trans hm)
    rw [← hsession]
    exact hk _ (List.mem_of_getElem? (List.getElem?_set_self (List.getElem?_eq_some_iff.mp hm).1))
  · exact hk m' (List.mem_of_getElem? (i := j) (by rw [affected, List.getElem?_set_ne hij, hj]))

/-- Starts are seen at the meter that something is done to. -/
theorem isStarted_affected (hm : w.meters[i]? = some m) (j : Nat) :
    (∃ m', (w.affected i g).meters[j]? = some m' ∧ m'.snapshot.isStarted = true) ↔
      if i = j then g.snapshot.isStarted = true
      else ∃ m', w.meters[j]? = some m' ∧ m'.snapshot.isStarted = true := by
  split
  · next hij =>
    subst hij
    rw [affected, List.getElem?_set_self (List.getElem?_eq_some_iff.mp hm).1]
    simp [Focus.snapshot]
  · next hij => rw [affected, List.getElem?_set_ne hij]

/-- What is done to a meter leaves the identities of the others, and its own as long as its mark is
the same. -/
theorem activeIds_affected_of_active_eq (order : List Nat) (hm : w.meters[i]? = some m)
    (heffect : Focus.Effect (w.surroundings enabled session) ⟨m, w.stack, []⟩ t g)
    (hactive : g.meter.active = m.active) :
    (w.affected i g).activeIds order = w.activeIds order := by
  have hid := Meter.fullId_eq_of_place heffect.meter_change.place_eq
  have hsame (j : Nat) : (w.affected i g).activeId? j = w.activeId? j := by
    by_cases hij : i = j
    · subst hij
      rw [activeId?_affected_self hm, hactive, hid, activeId?, hm]
      rfl
    · exact activeId?_affected_ne hij
  rw [activeIds, activeIds, funext hsame]

theorem activeIds_affected {order : List Nat} (hi : i ∉ order) :
    (w.affected i g).activeIds order = w.activeIds order :=
  List.filterMap_congr fun _ hj => activeId?_affected_ne fun hij => hi (hij ▸ hj)

/-- The identity of a meter that becomes inactive is taken out at the place of this meter, unless a
later one has the same identity and one in between another. -/
theorem reverse_erase_activeIds_iff {order : List Nat} (hnodup : order.Nodup) (hi : i ∈ order)
    {id : String} (hown : w.activeId? i = some id) (hafter : (w.affected i g).activeId? i = none) :
    ((w.activeIds order).reverse.erase id).reverse = (w.affected i g).activeIds order ↔
      ∀ p j x, [i, p, j].Sublist order → w.activeId? p = some x → w.activeId? j = some id →
        x = id := by
  obtain ⟨front, back, rfl⟩ := List.append_of_mem hi
  obtain ⟨hfront, hback⟩ : i ∉ front ∧ i ∉ back := by
    have hsplit := List.nodup_cons.mp (List.nodup_middle.mp hnodup)
    exact ⟨fun h => hsplit.1 (List.mem_append_left _ h),
      fun h => hsplit.1 (List.mem_append_right _ h)⟩
  have hbefore : w.activeIds (front ++ i :: back) =
      w.activeIds front ++ id :: w.activeIds back := by
    simp [activeIds, hown]
  have hrest : (w.affected i g).activeIds (front ++ i :: back) =
      w.activeIds front ++ w.activeIds back := by
    rw [← activeIds_affected (g := g) hfront, ← activeIds_affected (g := g) hback]
    simp [activeIds, hafter]
  rw [hbefore, hrest, reverse_erase_middle_iff]
  constructor
  · intro h p j x hsublist hp hj
    rw [cons_sublist_middle_iff hfront] at hsublist
    exact h x (pair_sublist_filterMap_iff.mpr ⟨p, j, hsublist, hp, hj⟩)
  · intro h x hx
    obtain ⟨p, j, hsublist, hp, hj⟩ := pair_sublist_filterMap_iff.mp hx
    exact h p j x ((cons_sublist_middle_iff hfront).mpr hsublist) hp hj

/-- Without a start a thread goes on to hold the identities in order, unless a meter becomes
inactive that has a later one with its identity and one in between with another. -/
theorem holds_affected_iff {order : List Nat} (hholds : w.Holds order) (hnodup : order.Nodup)
    (hi : m.active = true → i ∈ order) (hm : w.meters[i]? = some m)
    (heffect : Focus.Effect (w.surroundings enabled session) ⟨m, w.stack, []⟩ t g)
    (ht : t ≠ some .started) :
    (w.affected i g).Holds order ↔
      (m.active = true → g.meter.active = false → ∀ p j x, [i, p, j].Sublist order →
        w.activeId? p = some x → w.activeId? j = some m.snapshot.fullId →
          x = m.snapshot.fullId) := by
  have hstack := heffect.stack_eq
  rcases (heffect.of_ne_started ht).2 with hactive | ⟨hbefore, hafter⟩
  · replace hactive : g.meter.active = m.active := hactive
    rw [if_pos hactive.symm] at hstack
    have hsame : (w.affected i g).stack = w.stack := hstack
    rw [Holds, hsame, activeIds_affected_of_active_eq order hm heffect hactive]
    refine iff_of_true hholds ?_
    intro hbefore hafter
    cases (hactive.trans hbefore).symm.trans hafter
  · replace hbefore : m.active = true := hbefore
    have hne : ¬ (⟨m, w.stack, []⟩ : Focus).meter.active = g.meter.active := by
      simp [hbefore, hafter]
    have hown : w.activeId? i = some m.snapshot.fullId :=
      activeId?_eq_some_iff.mpr ⟨m, hm, hbefore, rfl⟩
    have hgone : (w.affected i g).activeId? i = none := by
      rw [activeId?_affected_self hm, hafter]
      rfl
    rw [if_neg hne, hafter] at hstack
    have hids : (w.affected i g).stack.ids = w.stack.ids.erase m.snapshot.fullId := by
      rw [affected, hstack]
      rfl
    rw [Holds, hids, ← List.reverse_reverse w.stack.ids, hholds,
      reverse_erase_activeIds_iff hnodup (hi hbefore) hown hgone]
    simp only [hbefore, hafter, true_imp_iff]

/-- What is done to a meter without starting it keeps the order. -/
theorem ordered_affected {order : List Nat} (hw : w.Sound) (h : w.Ordered order)
    (hm : w.meters[i]? = some m)
    (heffect : Focus.Effect (w.surroundings enabled session) ⟨m, w.stack, []⟩ t g)
    (ht : t ≠ some .started) : (w.affected i g).Ordered order := by
  refine ⟨h.nodup, ?_, ?_⟩
  · intro j
    rw [h.mem_iff, isStarted_affected hm]
    split
    · next hij =>
      subst hij
      rw [(heffect.of_ne_started ht).1, hm]
      simp [Focus.snapshot]
    · rfl
  · intro hsolo
    have hsolo' := isSolo_of_affected hm heffect.meter_change.session_eq hsolo
    rw [holds_affected_iff (h.ids hsolo') h.nodup (h.mem_of_active hw hm) hm heffect ht]
    -- In a single session a later meter has another identity.
    intro hactive _ p j x hsublist _ hid
    have hown : w.activeId? i = some m.snapshot.fullId :=
      activeId?_eq_some_iff.mpr ⟨m, hm, hactive, rfl⟩
    obtain rfl := activeId?_inj hw hsolo' hown hid
    exact absurd (hsublist.nodup h.nodup) (by simp)

theorem mem_noteStart {order : List Nat} (hm : w.meters[i]? = some m) (j : Nat) :
    j ∈ w.noteStart order (.call i .start) ↔ j ∈ order ∨ j = i := by
  have hlt := (List.getElem?_eq_some_iff.mp hm).1
  by_cases hi : i ∈ order
  · simp only [noteStart, hi, not_true_eq_false, and_false, if_false]
    exact ⟨Or.inl, fun h => h.elim id fun hj => hj ▸ hi⟩
  · simp [noteStart, hlt, hi]

theorem nodup_noteStart {order : List Nat} (h : order.Nodup) (a : Action) :
    (w.noteStart order a).Nodup := by
  unfold noteStart
  split
  · split
    · next hi => exact List.nodup_append.mpr ⟨h, List.nodup_singleton _, by grind⟩
    · exact h
  · exact h

/-- A meter that is started first is put on top, if it becomes active. -/
theorem holds_start {order : List Nat} (hw : w.Sound) (h : w.Ordered order)
    (hholds : w.Holds order) (hm : w.meters[i]? = some m) :
    (w.affected i (Focus.start (w.surroundings enabled session) ⟨m, w.stack, []⟩)).Holds
      (w.noteStart order (.call i .start)) := by
  have hlt := (List.getElem?_eq_some_iff.mp hm).1
  have hmarked : m.active = (m.snapshot.isStarted && !m.snapshot.outcome.isResolved) :=
    hw.marked m (List.mem_of_getElem? hm)
  have hmem : i ∈ order ↔ m.snapshot.isStarted = true := by
    rw [h.mem_iff, hm]
    simp
  have heffect : Focus.Effect (w.surroundings enabled session) ⟨m, w.stack, []⟩ _ _ := .start
  obtain ⟨metrics, hmeter⟩ := Focus.meter_start (w.surroundings enabled session)
    ⟨m, w.stack, []⟩
  generalize Focus.start (w.surroundings enabled session) ⟨m, w.stack, []⟩ = g at *
  have hactive : g.meter.active = (m.active || !m.snapshot.outcome.isResolved) := by
    rw [hmeter]
    rfl
  have hid : g.meter.snapshot.fullId = m.snapshot.fullId :=
    Meter.fullId_eq_of_place heffect.meter_change.place_eq
  have hstack : (w.affected i g).stack =
      if m.active = g.meter.active then w.stack else if g.meter.active then
        w.stack.push m.snapshot.fullId else w.stack.remove m.snapshot.fullId := heffect.stack_eq
  by_cases hi : i ∈ order
  · -- A meter that was started before keeps its mark.
    have hsame : g.meter.active = m.active := by
      rw [hactive, hmarked, hmem.mp hi]
      cases m.snapshot.outcome.isResolved <;> rfl
    have horder : w.noteStart order (.call i .start) = order := by simp [noteStart, hi]
    rw [Holds, hstack, if_pos hsame.symm, horder,
      activeIds_affected_of_active_eq order hm heffect hsame]
    exact hholds
  · have hinactive : m.active = false := by
      have hnot : m.snapshot.isStarted = false := by
        rw [← Bool.not_eq_true]
        exact fun h => hi (hmem.mpr h)
      rw [hmarked, hnot, Bool.false_and]
    have horder : w.noteStart order (.call i .start) = order ++ [i] := by
      simp [noteStart, hi, hlt]
    have hids : (w.affected i g).activeIds (order ++ [i]) =
        w.activeIds order ++ ((w.affected i g).activeId? i).toList := by
      have hrest := activeIds_affected (w := w) (g := g) hi
      unfold activeIds at hrest ⊢
      rw [List.filterMap_append, hrest]
      cases h : (w.affected i g).activeId? i <;> simp [h]
    rw [Holds] at hholds ⊢
    rw [horder, hids, activeId?_affected_self hm, hstack, hinactive, hid]
    cases hg : g.meter.active
    · simpa using hholds
    · simpa [ActiveStack.push] using hholds

/-- A start puts a meter at the end of the order, unless it is there already. -/
theorem ordered_start {order : List Nat} (hw : w.Sound) (h : w.Ordered order)
    (hm : w.meters[i]? = some m) :
    (w.affected i (Focus.start (w.surroundings enabled session) ⟨m, w.stack, []⟩)).Ordered
      (w.noteStart order (.call i .start)) := by
  have heffect : Focus.Effect (w.surroundings enabled session) ⟨m, w.stack, []⟩ _ _ := .start
  refine ⟨nodup_noteStart h.nodup _, ?_, ?_⟩
  · intro j
    obtain ⟨metrics, hmeter⟩ := Focus.meter_start (w.surroundings enabled session)
      ⟨m, w.stack, []⟩
    rw [mem_noteStart hm, h.mem_iff, isStarted_affected hm]
    split
    · next hij =>
      have hnow : (w.surroundings enabled session).now ≠ 0 := w.now_ne_zero
      simp [hij, Focus.snapshot, hmeter, Meter.withMetrics, Snapshot.withMetrics, Meter.started,
        Snapshot.isStarted, hnow]
    · next hij => simp [Ne.symm hij]
  · intro hsolo
    exact holds_start hw h
      (h.ids (isSolo_of_affected hm heffect.meter_change.session_eq hsolo)) hm

end Affected

/-! ## The order over actions -/

section

variable {enabled : Enabled} {w : World} {order : List Nat}

theorem Holds.of_eq {w' : World} (h : w.Holds order) (hmeters : w'.meters = w.meters)
    (hstack : w'.stack = w.stack) : w'.Holds order := by
  have hid : w'.activeId? = w.activeId? := by
    funext i
    rw [activeId?, activeId?, hmeters]
  rw [Holds, hstack, activeIds, hid]
  exact h

theorem Ordered.of_eq {w' : World} (h : w.Ordered order) (hmeters : w'.meters = w.meters)
    (hstack : w'.stack = w.stack) : w'.Ordered order := by
  refine ⟨h.nodup, ?_, ?_⟩
  · intro i
    rw [hmeters]
    exact h.mem_iff i
  · intro hsolo
    rw [IsSolo, hmeters] at hsolo
    exact (h.ids hsolo).of_eq hmeters hstack

/-- A new meter is not started yet and not active. -/
theorem exists_meters_created (w : World) (k : Nat) (session : Session) (category : String)
    (operation parent : Option String) (context : Context) : ∃ m,
      (w.created k session category operation parent context).meters = w.meters ++ [m] ∧
        m.active = false ∧ m.snapshot.isStarted = false := ⟨_, rfl, rfl, rfl⟩

theorem getElem?_concat_eq_or {α : Type} (l : List α) (a : α) (i : Nat) :
    (l ++ [a])[i]? = l[i]? ∨ l[i]? = none ∧ (l ++ [a])[i]? = some a := by
  by_cases hi : i < l.length
  · exact Or.inl (List.getElem?_append_left hi)
  · have hle := Nat.le_of_not_lt hi
    rw [List.getElem?_append_right hle, List.getElem?_eq_none hle]
    cases i - l.length with
    | zero => exact Or.inr ⟨rfl, rfl⟩
    | succ n => exact Or.inl rfl

theorem activeId?_created (w : World) (k : Nat) (session : Session) (category : String)
    (operation parent : Option String) (context : Context) :
    (w.created k session category operation parent context).activeId? = w.activeId? := by
  obtain ⟨m, hmeters, hinactive, -⟩ :=
    exists_meters_created w k session category operation parent context
  funext i
  rw [activeId?, activeId?, hmeters]
  rcases getElem?_concat_eq_or w.meters m i with h | ⟨h, h'⟩
  · rw [h]
  · simp [h, h', hinactive]

theorem activeId?_create (w : World) (k : Nat) (category : String)
    (operation parent : Option String) (context : Context) :
    (w.create k category operation parent context).activeId? = w.activeId? := by
  rcases create_eq w k category operation parent context with ⟨-, h⟩ | ⟨session, -, h⟩
  · rw [h]
  · rw [h, activeId?_created]

theorem Holds.created (h : w.Holds order) (k : Nat) (session : Session) (category : String)
    (operation parent : Option String) (context : Context) :
    (w.created k session category operation parent context).Holds order := by
  have hstack : (w.created k session category operation parent context).stack = w.stack := rfl
  rw [Holds, hstack, activeIds, activeId?_created]
  exact h

theorem ordered_created (h : w.Ordered order) (k : Nat) (session : Session) (category : String)
    (operation parent : Option String) (context : Context) :
    (w.created k session category operation parent context).Ordered order := by
  obtain ⟨m, hmeters, -, hunstarted⟩ :=
    exists_meters_created w k session category operation parent context
  refine ⟨h.nodup, ?_, ?_⟩
  · intro i
    rw [h.mem_iff, hmeters]
    rcases getElem?_concat_eq_or w.meters m i with h | ⟨h, h'⟩
    · rw [h]
    · simp [h, h', hunstarted]
  · rintro ⟨⟨k', hk⟩, hlength⟩
    rw [hmeters] at hk hlength
    rw [List.length_append] at hlength
    refine (h.ids ⟨⟨k', ?_⟩, by omega⟩).created k session category operation parent context
    intro m' hm'
    exact hk m' (List.mem_append_left _ hm')

theorem ordered_create (h : w.Ordered order) (k : Nat) (category : String)
    (operation parent : Option String) (context : Context) :
    (w.create k category operation parent context).Ordered order := by
  rcases create_eq w k category operation parent context with ⟨-, heq⟩ | ⟨session, -, heq⟩
  · rwa [heq]
  · rw [heq]
    exact ordered_created h k session category operation parent context

theorem ordered_withMeter (hw : w.Sound) (h : w.Ordered order) (i : Nat)
    {act : Surroundings → Focus → Focus}
    (hact : ∀ around f, ∃ t, Focus.Effect around f t (act around f) ∧ t ≠ some .started) :
    (w.withMeter enabled i act).Ordered order := by
  rcases withMeter_eq enabled w i act with heq | ⟨m, session, hm, -, heq⟩
  · rwa [heq]
  · obtain ⟨t, heffect, ht⟩ := hact (w.surroundings enabled session) ⟨m, w.stack, []⟩
    rw [heq]
    exact ordered_affected hw h hm heffect ht

theorem ordered_act (hw : w.Sound) (h : w.Ordered order) (a : Action)
    (ha : a.switchesThread = false) : (w.act enabled a).Ordered (w.noteStart order a) := by
  cases a with
  | setClock nanos | advance nanos | setMetrics m => exact h.of_eq rfl rfl
  | create k category operation => exact ordered_create h k category operation none .empty
  | createPart i name =>
    have hreport : (w.withMeter enabled i fun _ f =>
        f.report (f.snapshot.misuseOfPart name)).Ordered order :=
      ordered_withMeter hw h i fun around f => ⟨none, effect_misuseOfPart name around f, nofun⟩
    simp only [act, createPart]
    split
    · exact hreport
    · exact ordered_create hreport _ _ _ _ _
  | call i c =>
    by_cases hc : c = .start
    · subst hc
      cases hm : w.meters[i]? with
      | none =>
        have hlt : ¬ i < w.meters.length := by simpa using hm
        have hsame : w.act enabled (.call i .start) = w := by simp [act, World.call, withMeter, hm]
        simpa [hsame, noteStart, hlt] using h
      | some m =>
        have hsession := hw.hasSessions m (List.mem_of_getElem? hm)
        have hact := withMeter_of_getElem? enabled w i (fun around f => f.perform around .start) hm
          (List.getElem?_eq_getElem hsession)
        simp only [act, World.call, hact]
        exact ordered_start hw h hm
    · have horder : w.noteStart order (.call i c) = order := by
        cases c <;> first | rfl | exact absurd rfl hc
      rw [horder]
      exact ordered_withMeter hw h i fun around f => Focus.perform_effect around f c hc
  | drop unwinding i =>
    exact ordered_withMeter hw h i fun around f => Focus.drop_effect around f unwinding
  | enterThread | leaveThread => simp [Action.switchesThread] at ha

theorem ordered_acts (enabled : Enabled) (w : World) (hw : w.Untouched) (as : List Action)
    (has : ∀ a ∈ as, a.switchesThread = false) :
    (w.acts enabled as).Ordered (w.startOrder enabled [] as) := by
  -- The run is cut at every action: what lies before it makes the world sound.
  have hrest (before rest : List Action) (order : List Nat)
      (horder : (w.acts enabled before).Ordered order)
      (hrest : ∀ a ∈ rest, a.switchesThread = false) :
      (w.acts enabled (before ++ rest)).Ordered
        ((w.acts enabled before).startOrder enabled order rest) := by
    induction rest generalizing before order with
    | nil =>
      rw [List.append_nil]
      exact horder
    | cons a rest ih =>
      obtain ⟨ha, hrest⟩ := List.forall_mem_cons.mp hrest
      have hact : ((w.acts enabled before).act enabled a).Ordered _ :=
        ordered_act (sound_acts enabled w hw before) horder a ha
      rw [← acts_concat] at hact
      have h := ih (before ++ [a]) _ hact hrest
      rw [acts_concat, List.append_assoc, List.singleton_append] at h
      exact h
  refine hrest [] as [] ⟨List.nodup_nil, ?_, ?_⟩ has
  · intro i
    simp [acts, hw.meters]
  · intro _
    simp [Holds, acts, hw.stack, activeIds]

theorem counted_acts (enabled : Enabled) (w : World) (as : List Action)
    (has : ∀ a ∈ as, a.switchesThread = false) (hw : w.Counted) : (w.acts enabled as).Counted := by
  induction as generalizing w with
  | nil => exact hw
  | cons a as ih =>
    obtain ⟨ha, has⟩ := List.forall_mem_cons.mp has
    exact ih _ has (counted_act enabled w a ha hw)

/-- Whether a meter was dropped in the course of some actions. -/
def WasDropped (enabled : Enabled) (w : World) (as : List Action) (i : Nat) : Prop :=
  ∃ before unwinding after, as = before ++ .drop unwinding i :: after ∧
    i < (w.acts enabled before).meters.length

/-- A meter that was dropped is resolved. -/
theorem WasDropped.isResolved {as : List Action} {i : Nat} (hw : w.Untouched)
    (h : WasDropped enabled w as i) : (w.acts enabled as).IsResolved i := by
  obtain ⟨before, unwinding, after, rfl, hlt⟩ := h
  have hm := List.getElem?_eq_getElem hlt
  have hsession := (sound_acts enabled w hw before).hasSessions _ (List.getElem_mem hlt)
  have hact := withMeter_of_getElem? enabled _ i (fun around f => f.drop around unwinding) hm
    (List.getElem?_eq_getElem hsession)
  rw [← List.singleton_append, ← List.append_assoc, acts_append, acts_concat]
  refine isResolved_acts enabled _ after i ?_
  simp only [act, World.drop, hact]
  exact ⟨_, List.getElem?_set_self hlt, Focus.isResolved_drop _ _ unwinding⟩

end

end Metering.World

namespace Metering

open World

/-- As long as a script stays on one thread, a meter is active exactly if it was started and is not
resolved. The thread holds the identity of every active meter once for each such meter, and none
once all meters are resolved or dropped. If all meters come from one session, it holds the
identities of the active ones, all different, in the order of their first start, so the current one
is the one whose first start is the latest. -/
theorem active_stack {α : Type} (l : Logger) (steps : List (Step α)) (w : World) (hw : w.Untouched)
    (k : Nat) (hthread : ∀ a ∈ historyAt l steps w k, a.switchesThread = false) :
    (∀ i m, (worldAt l steps w k).meters[i]? = some m →
        (m.active = true ↔
          i ∈ w.startOrder l.enabled [] (historyAt l steps w k) ∧ m.snapshot.outcome = .unset)) ∧
      ((worldAt l steps w k).IsSolo →
        (worldAt l steps w k).stack.ids.reverse = (worldAt l steps w k).activeIds
            (w.startOrder l.enabled [] (historyAt l steps w k)) ∧
          (worldAt l steps w k).stack.ids.Nodup ∧
          (worldAt l steps w k).stack.current = ((worldAt l steps w k).activeIds
            (w.startOrder l.enabled [] (historyAt l steps w k))).getLast? ∧
          ((worldAt l steps w k).stack.current = none ↔
            ∀ m ∈ (worldAt l steps w k).meters, m.active = false)) ∧
      (∀ id, (worldAt l steps w k).stack.ids.count id =
        (worldAt l steps w k).meters.countP (activeAs id)) ∧
      ((∀ i < (worldAt l steps w k).meters.length, (worldAt l steps w k).IsResolved i ∨
          WasDropped l.enabled w (historyAt l steps w k) i) →
        (worldAt l steps w k).stack.ids = []) := by
  have hsound : (worldAt l steps w k).Sound := sound_acts l.enabled w hw _
  have horder := ordered_acts l.enabled w hw _ hthread
  have hcounted : (worldAt l steps w k).Counted := by
    apply counted_acts l.enabled w _ hthread
    intro id
    simp [hw.stack, hw.meters]
  rw [← worldAt] at horder
  refine ⟨?_, ?_, hcounted, ?_⟩
  · intro i m hm
    have hmarked : m.active = (m.snapshot.isStarted && !m.snapshot.outcome.isResolved) :=
      hsound.marked m (List.mem_of_getElem? hm)
    rw [horder.mem_iff, hm, hmarked, Bool.and_eq_true, Bool.not_eq_true', isResolved_eq_false_iff]
    simp
  · intro hsolo
    refine ⟨horder.ids hsolo, ?_, ?_, ?_⟩
    · rw [← List.nodup_reverse, horder.ids hsolo]
      exact nodup_activeIds hsound hsolo horder.nodup
    · rw [← horder.ids hsolo, List.getLast?_reverse]
      rfl
    · rw [← hcounted.ids_eq_nil_iff]
      exact List.head?_eq_none_iff
  · intro hall
    rw [hcounted.ids_eq_nil_iff]
    intro m hm
    obtain ⟨i, hi⟩ := List.mem_iff_getElem?.mp hm
    obtain ⟨m', hm', hresolved⟩ : (worldAt l steps w k).IsResolved i :=
      (hall i (List.getElem?_eq_some_iff.mp hi).1).elim id fun h => h.isResolved hw
    obtain rfl : m' = m := Option.some.inj (hm'.symm.trans hi)
    have hmarked : m'.active = (m'.snapshot.isStarted && !m'.snapshot.outcome.isResolved) :=
      hsound.marked m' hm
    rw [hmarked, hresolved]
    simp

/-- Of two meters that were started one after the other, the second one is the current one. -/
theorem active_stack_two_starts :
    (worldAt Logger.recorder ([.create "a" "c" none, .create "b" "c" none, .call "b" .start,
      .call "a" .start] : List (Step Unit)) { sessions := [{ id := "s" }] } 4).stack.current =
        some "c#1" := by
  obtain ⟨-, hsolo, -, -⟩ := active_stack Logger.recorder
    ([.create "a" "c" none, .create "b" "c" none, .call "b" .start, .call "a" .start] :
      List (Step Unit)) { sessions := [{ id := "s" }] } ⟨rfl, rfl, rfl, by simp⟩ 4
    (by decide +kernel)
  exact (hsolo ⟨⟨0, by decide +kernel⟩, by decide +kernel⟩).2.2.1.trans (by decide +kernel)

end Metering
