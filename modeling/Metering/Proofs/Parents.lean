import Metering.Proofs.OwnHistory
import Metering.Proofs.StartOrder

/-!
# Proofs: parents form a forest

A meter records no more of its parent than the full identity, which it takes from the meter whose
part it is made for, or else from the top of the active ones. In a single session an identity belongs
to one meter only, and that meter was there before. So the parents come earlier in the order of
creation, and following them ends at a meter without one.
-/

namespace Metering

namespace World

/-- Whether a meter records the identity of another one as that of its parent. -/
def IsParent (w : World) (j i : Nat) : Prop :=
  ∃ m p, w.meters[i]? = some m ∧ w.meters[j]? = some p ∧
    m.snapshot.parent = some p.snapshot.fullId

/-- Whether a meter was started and is not resolved. -/
def isRunning (w : World) (i : Nat) : Bool :=
  w.meters[i]?.any fun m => m.snapshot.isStarted && !m.snapshot.outcome.isResolved

/-- Those of some meters that were started and are not resolved. -/
def running (w : World) (order : List Nat) : List Nat := order.filter w.isRunning

section

variable {enabled : Enabled} {w : World}

/-! ## Parents in a single session -/

theorem isSolo_of_acts (as : List Action) (hsolo : (w.acts enabled as).IsSolo) : w.IsSolo := by
  obtain ⟨⟨k, hk⟩, hlength⟩ := hsolo
  refine ⟨⟨k, ?_⟩, lt_of_le_of_lt (length_le_acts enabled w as) hlength⟩
  intro m hm
  obtain ⟨i, hi⟩ := List.mem_iff_getElem?.mp hm
  obtain ⟨m', hm', hsession, -⟩ := @exists_same_identity enabled w as i m hi
  rw [← hsession]
  exact hk m' (List.mem_of_getElem? hm')

theorem IsParent.unique (hw : w.Sound) (hsolo : w.IsSolo) {i j j' : Nat} (h : w.IsParent j i)
    (h' : w.IsParent j' i) : j' = j := by
  obtain ⟨m, p, hm, hp, hparent⟩ := h
  obtain ⟨m', p', hm', hp', hparent'⟩ := h'
  obtain rfl := Option.some.inj (hm.symm.trans hm')
  exact eq_of_fullId_eq hw hsolo hp' hp (Option.some.inj (hparent'.symm.trans hparent))

/-- A meter keeps the parent that it was made with. -/
theorem exists_same_parent (enabled : Enabled) (as : List Action) {i : Nat} {m : Meter}
    (hm : w.meters[i]? = some m) :
    ∃ m', (w.acts enabled as).meters[i]? = some m' ∧
      m'.snapshot.parent = m.snapshot.parent := by
  refine exists_meter_acts (P := fun m' => m'.snapshot.parent = m.snapshot.parent) ?_ enabled w as i
    ⟨m, hm, rfl⟩
  intro now m' m'' _ hchange hparent
  rw [← hparent]
  cases hchange <;> rfl

/-- The one whose identity was taken is the parent ever after. -/
theorem isParent_acts (as : List Action) {i j : Nat} {m p : Meter} (hp : w.meters[j]? = some p)
    (hm : (w.acts enabled as).meters[i]? = some m)
    (hparent : m.snapshot.parent = some p.snapshot.fullId) :
    (w.acts enabled as).IsParent j i := by
  obtain ⟨p', hp', -, hid⟩ := @exists_same_identity enabled w as j p hp
  exact ⟨m, p', hm, hp', hparent.trans (congrArg some hid.symm)⟩

/-! ## The innermost active meter -/

theorem Sound.isRunning_eq (hw : w.Sound) {i : Nat} {m : Meter} (hm : w.meters[i]? = some m) :
    w.isRunning i = m.active := by
  have hmarked : m.active = (m.snapshot.isStarted && !m.snapshot.outcome.isResolved) :=
    hw.marked m (List.mem_of_getElem? hm)
  rw [isRunning, hm, hmarked]
  rfl

theorem Sound.activeIds_running (hw : w.Sound) (order : List Nat) :
    w.activeIds (w.running order) = w.activeIds order := by
  rw [activeIds, activeIds, running, List.filterMap_filter]
  apply List.filterMap_congr
  intro i _
  cases hm : w.meters[i]? with
  | none => simp [activeId?, isRunning, hm]
  | some m =>
    rw [hw.isRunning_eq hm, activeId?, hm, Option.bind_some]
    cases m.active <;> rfl

/-- Either no meter is active, or the current one is the one that was started last of those that
are running. -/
theorem Ordered.current_cases {order : List Nat} (h : w.Ordered order) (hw : w.Sound)
    (hsolo : w.IsSolo) :
    (w.stack.current = none ∧ ∀ p ∈ w.meters, p.active = false) ∨
      ∃ j p, (w.running order).getLast? = some j ∧ w.meters[j]? = some p ∧ p.active = true ∧
        w.stack.current = some p.snapshot.fullId := by
  have hcurrent : w.stack.current = (w.activeIds (w.running order)).getLast? := by
    rw [hw.activeIds_running, ← h.ids hsolo, List.getLast?_reverse]
    rfl
  rcases List.eq_nil_or_concat (w.running order) with hnil | ⟨init, j, hconcat⟩
  · left
    rw [hcurrent, hnil]
    refine ⟨rfl, ?_⟩
    intro p hp
    obtain ⟨i, hi⟩ := List.mem_iff_getElem?.mp hp
    -- An active meter was started, so it is in the order and would be among those that are running.
    rw [← hw.isRunning_eq hi, ← Bool.not_eq_true]
    intro hrunning
    have hstarted : p.snapshot.isStarted = true := by
      rw [isRunning, hi] at hrunning
      exact (Bool.and_eq_true_iff.mp hrunning).1
    have hmem : i ∈ w.running order :=
      List.mem_filter.mpr ⟨(h.mem_iff i).mpr ⟨p, hi, hstarted⟩, hrunning⟩
    rw [hnil] at hmem
    exact absurd hmem List.not_mem_nil
  · right
    rw [List.concat_eq_append] at hconcat
    have hlast : j ∈ w.running order := by simp [hconcat]
    obtain ⟨hmem, hrunning⟩ := List.mem_filter.mp hlast
    obtain ⟨p, hp, -⟩ := (h.mem_iff j).mp hmem
    have hactive : p.active = true := by rw [← hw.isRunning_eq hp, hrunning]
    have hid : w.activeId? j = some p.snapshot.fullId :=
      activeId?_eq_some_iff.mpr ⟨p, hp, hactive, rfl⟩
    refine ⟨j, p, by simp [hconcat], hp, hactive, ?_⟩
    rw [hcurrent, hconcat, activeIds]
    simp [hid]

/-! ## Births -/

/-- How a meter comes by its parent, in view of the world where it is made. -/
inductive Descends (born w : World) (order : List Nat) (i : Nat) (parent : Option String) :
    Action → Prop where
  /-- A part has the meter whose part it is as its parent. -/
  | part {j : Nat} (name : String) (hlt : j < i) (h : w.IsParent j i) :
    Descends born w order i parent (.createPart j name)
  /-- A meter has no parent, for no meter was active. -/
  | root {k : Nat} {category : String} {operation : Option String} (hnone : parent = none)
    (hidle : ∀ p ∈ born.meters, p.active = false) :
    Descends born w order i parent (.create k category operation)
  /-- A meter has the one as its parent that was started last of those that were running. -/
  | innermost {k j : Nat} {category : String} {operation : Option String}
    (hlast : (born.running order).getLast? = some j) (hactive : ∃ p ∈ born.meters, p.active = true)
    (hlt : j < i) (h : w.IsParent j i) :
    Descends born w order i parent (.create k category operation)

theorem Newborn.descends {order : List Nat} {a : Action} {m₀ m : Meter} (h : w.Newborn a m₀)
    (horder : w.Ordered order) (hw : w.Sound) (hsolo : w.IsSolo) (as : List Action)
    (hm : (w.acts enabled as).meters[w.meters.length]? = some m)
    (hparent : m.snapshot.parent = m₀.snapshot.parent) :
    w.Descends (w.acts enabled as) order w.meters.length m.snapshot.parent a := by
  cases h with
  | part name hp hsession =>
    exact .part name (List.getElem?_eq_some_iff.mp hp).1 (isParent_acts as hp hm hparent)
  | create category operation hsession =>
    rcases horder.current_cases hw hsolo with
      ⟨hnone, hidle⟩ | ⟨j, p, hlast, hp, hactive, hcurrent⟩
    · exact .root (hparent.trans hnone) hidle
    · exact .innermost hlast ⟨p, List.mem_of_getElem? hp, hactive⟩
        (List.getElem?_eq_some_iff.mp hp).1 (isParent_acts as hp hm (hparent.trans hcurrent))

theorem Descends.parent_cases {born : World} {order : List Nat} {i : Nat} {a : Action}
    {parent : Option String} (h : Descends born w order i parent a) :
    parent = none ∨ ∃ j < i, w.IsParent j i := by
  cases h with
  | part name hlt h => exact Or.inr ⟨_, hlt, h⟩
  | root hnone hidle => exact Or.inl hnone
  | innermost hlast hactive hlt h => exact Or.inr ⟨_, hlt, h⟩

end

end World

open World

section

variable {α : Type} (l : Logger) (steps : List (Step α)) {w : World} (hw : w.Untouched) {n : Nat}
  (hthread : ∀ a ∈ historyAt l steps w n, a.switchesThread = false)
  (hsolo : (worldAt l steps w n).IsSolo)

include hw hthread hsolo

/-- Every meter was made at some moment as the next one, and has the parent that it got there. -/
theorem exists_descends {i : Nat} {m : Meter} (hm : (worldAt l steps w n).meters[i]? = some m) :
    ∃ b a, b < n ∧ (runScript l steps w).1.history[b]? = some a ∧
      (worldAt l steps w b).meters.length = i ∧
      (worldAt l steps w (b + 1)).meters.length = i + 1 ∧
      Descends (worldAt l steps w b) (worldAt l steps w n)
        (w.startOrder l.enabled [] (historyAt l steps w b)) i m.snapshot.parent a := by
  have hi := (List.getElem?_eq_some_iff.mp hm).1
  obtain ⟨before, a, after, m₀, hsplit, rfl, hm₀, hborn⟩ := exists_newborn hw.meters hi
  obtain ⟨hlt, ha, hbefore⟩ := historyAt_split l steps w hsplit
  have hworld : worldAt l steps w before.length = w.acts l.enabled before := by
    rw [worldAt, hbefore]
  -- The run goes on from the world in which the meter was made, and there the order is told by the
  -- history so far.
  have hlater : worldAt l steps w n = (w.acts l.enabled before).acts l.enabled (a :: after) := by
    rw [worldAt, hsplit, acts_append]
  refine ⟨before.length, a, hlt, ha, by rw [hworld], ?_, ?_⟩
  · rw [worldAt_succ l steps w ha, hworld]
    have hnext := (List.getElem?_eq_some_iff.mp hm₀).1
    rcases length_act_cases l.enabled (w.acts l.enabled before) a with h | h <;> omega
  · rw [hlater] at hm hsolo ⊢
    rw [hworld, hbefore]
    have horder := ordered_acts l.enabled w hw before fun b hb =>
      hthread b (hsplit ▸ List.mem_append_left _ hb)
    obtain ⟨m', hm', hparent⟩ := exists_same_parent l.enabled after hm₀
    obtain rfl := Option.some.inj (hm.symm.trans hm')
    exact hborn.descends horder (sound_acts l.enabled w hw before) (isSolo_of_acts _ hsolo) _ hm
      hparent

/-- Parents were there before. -/
theorem lt_of_isParent {i j : Nat} (h : (worldAt l steps w n).IsParent j i) : j < i := by
  obtain ⟨m, p, hm, hp, hparent⟩ := id h
  obtain ⟨b, a, -, -, -, -, hdescends⟩ := exists_descends l steps hw hthread hsolo hm
  rcases hdescends.parent_cases with hnone | ⟨j', hlt, h'⟩
  · cases hnone.symm.trans hparent
  · rwa [h'.unique (sound_acts l.enabled w hw _) hsolo h]

end

/-- In every run of a script that stays on one thread and creates fewer meters than a word can
count, all of one session, following parents always ends. A meter has no parent, or its parent has
the identity of one meter only, which was created earlier. The parent of a part is the meter whose
part it is, active or not. Any other meter has no parent exactly if no meter was active when it was
created, and otherwise its parent is the one of those running then whose first start is the
latest. -/
theorem parents_form_forest {α : Type} (l : Logger) (steps : List (Step α)) (w : World)
    (hw : w.Untouched) (n : Nat)
    (hthread : ∀ a ∈ historyAt l steps w n, a.switchesThread = false)
    (hsolo : (worldAt l steps w n).IsSolo) :
    WellFounded (worldAt l steps w n).IsParent ∧
      ∀ i m, (worldAt l steps w n).meters[i]? = some m →
        (m.snapshot.parent = none ∨
          ∃ j < i, ∀ j', (worldAt l steps w n).IsParent j' i ↔ j' = j) ∧
        ∃ b a, b < n ∧ (runScript l steps w).1.history[b]? = some a ∧
          (worldAt l steps w b).meters.length = i ∧
          (worldAt l steps w (b + 1)).meters.length = i + 1 ∧
          ((∃ j name, a = .createPart j name ∧ (worldAt l steps w n).IsParent j i) ∨
            ∃ k category operation, a = .create k category operation ∧
              (m.snapshot.parent = none ↔
                ∀ p ∈ (worldAt l steps w b).meters, p.active = false) ∧
              (m.snapshot.parent ≠ none → ∃ j,
                ((worldAt l steps w b).running
                    (w.startOrder l.enabled [] (historyAt l steps w b))).getLast? = some j ∧
                  (worldAt l steps w n).IsParent j i)) := by
  constructor
  · exact Subrelation.wf (lt_of_isParent l steps hw hthread hsolo) Nat.lt_wfRel.wf
  intro i m hm
  obtain ⟨b, a, hlt, ha, hlength, hlength', hdescends⟩ :=
    exists_descends l steps hw hthread hsolo hm
  constructor
  · rcases hdescends.parent_cases with hnone | ⟨j, hj, hparent⟩
    · exact Or.inl hnone
    · refine Or.inr ⟨j, hj, fun j' => ⟨?_, ?_⟩⟩
      · exact hparent.unique (sound_acts l.enabled w hw _) hsolo
      · rintro rfl
        exact hparent
  refine ⟨b, a, hlt, ha, hlength, hlength', ?_⟩
  cases hdescends with
  | part name hj hparent => exact Or.inl ⟨_, name, rfl, hparent⟩
  | root hnone hidle =>
    exact Or.inr ⟨_, _, _, rfl, iff_of_true hnone hidle, fun h => absurd hnone h⟩
  | innermost hlast hactive hj hparent =>
    refine Or.inr ⟨_, _, _, rfl, iff_of_false ?_ ?_, fun _ => ⟨_, hlast, hparent⟩⟩
    · obtain ⟨m', p, hm', hp, hid⟩ := hparent
      obtain rfl := Option.some.inj (hm.symm.trans hm')
      rw [hid]
      nofun
    · obtain ⟨p, hp, hactive⟩ := hactive
      intro hidle
      cases hactive.symm.trans (hidle p hp)

/-- Where two meters are running, the parent of a new one is the one that was started last, though it
was made first. A part of a meter that was never started has that meter. -/
theorem parents_form_forest_part :
    ∃ w, w = worldAt Logger.recorder ([.create "a" "c" none, .create "b" "c" none,
        .call "b" .start, .call "a" .start, .create "d" "c" none, .createPart "d" "x" "e"] :
          List (Step Unit)) { sessions := [{ id := "s" }] } 6 ∧
      (∀ j, w.IsParent j 2 ↔ j = 0) ∧ (∀ j, w.IsParent j 3 ↔ j = 2) := by
  obtain ⟨-, hmeter⟩ := parents_form_forest Logger.recorder
    ([.create "a" "c" none, .create "b" "c" none, .call "b" .start, .call "a" .start,
      .create "d" "c" none, .createPart "d" "x" "e"] : List (Step Unit))
    { sessions := [{ id := "s" }] } ⟨rfl, rfl, rfl, by simp⟩ 6 (by decide +kernel)
    ⟨⟨0, by decide +kernel⟩, by decide +kernel⟩
  refine ⟨_, rfl, ?_, ?_⟩
  · rcases (hmeter 2 _ rfl).1 with hnone | ⟨j, -, hj⟩
    · exact absurd hnone (by decide +kernel)
    · obtain rfl : 0 = j := (hj 0).mp ⟨_, _, rfl, rfl, by decide +kernel⟩
      exact hj
  · rcases (hmeter 3 _ rfl).1 with hnone | ⟨j, -, hj⟩
    · exact absurd hnone (by decide +kernel)
    · obtain rfl : 2 = j := (hj 2).mp ⟨_, _, rfl, rfl, by decide +kernel⟩
      exact hj

end Metering
