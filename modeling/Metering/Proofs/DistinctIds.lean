import Metering.Proofs.Active

/-!
# Proofs: no two meters of a session share an identity

A script creates the meters of a session by asking for a category, for an operation or for a part of
an operation that has a meter already. Every creation makes one more meter of the session, and as
long as there are fewer creations than a word can count, the full identities of these meters are all
different, whatever names they are made from. What is done to a meter does not change its identity.
-/

namespace Metering

namespace World

/-! ## Creations -/

/-- The session in which an action creates a meter, if it creates one. -/
def creation? (w : World) : Action → Option Nat
  | .create k _ _ => (some k).filter (· < w.sessions.length)
  | .createPart i _ => (w.meters[i]?.map Meter.session).filter (· < w.sessions.length)
  | _ => none

/-- How many meters actions create in a session, one after another. -/
def creations (enabled : Enabled) (k : Nat) : World → List Action → Nat
  | _, [] => 0
  | w, a :: as =>
    (if w.creation? a = some k then 1 else 0) + creations enabled k (w.act enabled a) as

section

variable {enabled : Enabled}

theorem population_create (w : World) (k k' : Nat) (category : String)
    (operation parent : Option String) (context : Context) :
    (w.create k' category operation parent context).population k =
      w.population k + if (some k').filter (· < w.sessions.length) = some k then 1 else 0 := by
  rcases create_eq w k' category operation parent context with ⟨hnone, h⟩ | ⟨session, hsession, h⟩
  · have hle : ¬ k' < w.sessions.length := by simpa using hnone
    have hfilter : (some k').filter (· < w.sessions.length) = none := by
      simpa [Option.filter_some] using hle
    rw [h, hfilter]
    rfl
  · have hlt := (List.getElem?_eq_some_iff.mp hsession).1
    have hfilter : (some k').filter (· < w.sessions.length) = some k' := by
      simpa [Option.filter_some] using hlt
    rw [h, population_created, hfilter]
    simp only [Option.some.injEq]

theorem sessions_withMeter (w : World) (i : Nat) (act : Surroundings → Focus → Focus) :
    (w.withMeter enabled i act).sessions = w.sessions := by
  rcases withMeter_eq enabled w i act with h | ⟨m, session, -, -, h⟩ <;> rw [h]
  rfl

theorem session_withMeter (w : World) (i : Nat) {act : Surroundings → Focus → Focus}
    (hact : ∀ around f, ∃ t, Focus.Effect around f t (act around f)) :
    (w.withMeter enabled i act).meters.map Meter.session = w.meters.map Meter.session := by
  rcases withMeter_eq enabled w i act with h | ⟨m, session, hm, -, h⟩
  · rw [h]
  · obtain ⟨t, heffect⟩ := hact (w.surroundings enabled session) ⟨m, w.stack, []⟩
    have hsame := heffect.meter_change.session_eq
    rw [h, affected, List.map_set, hsame]
    exact set_eq_self (by rw [List.getElem?_map, hm]; rfl)

theorem population_eq_of_sessions {w w' : World}
    (h : w'.meters.map Meter.session = w.meters.map Meter.session) (k : Nat) :
    w'.population k = w.population k := by
  have hcount (w : World) : w.population k = (w.meters.map Meter.session).countP (· == k) := by
    rw [List.countP_map]
    rfl
  rw [hcount, hcount, h]

/-- An action adds one meter to the session in which it creates one, and none to the others. -/
theorem population_act (w : World) (k : Nat) (a : Action) :
    (w.act enabled a).population k =
      w.population k + if w.creation? a = some k then 1 else 0 := by
  cases a with
  | setClock nanos | advance nanos | setMetrics m | enterThread => rfl
  | leaveThread =>
    simp only [act, leaveThread]
    split <;> rfl
  | create k' category operation => exact population_create w k k' category operation none .empty
  | createPart i name =>
    -- The report on the name comes first. The part is then made in the session of its meter.
    have hsessions : (w.withMeter enabled i fun _ f =>
        f.report (f.snapshot.misuseOfPart name)).meters.map Meter.session =
          w.meters.map Meter.session :=
      session_withMeter w i fun around f => ⟨none, effect_misuseOfPart name around f⟩
    have hget := congrArg (·[i]?) hsessions
    simp only [List.getElem?_map] at hget
    simp only [act, createPart, creation?, ← hget]
    split
    · next hnone =>
      rw [hnone, population_eq_of_sessions hsessions]
      rfl
    · next m hm =>
      rw [hm, population_create, population_eq_of_sessions hsessions, sessions_withMeter]
      rfl
  | call i c =>
    exact population_eq_of_sessions
      (session_withMeter w i fun around f => exists_effect_perform around f c) k
  | drop unwinding i =>
    exact population_eq_of_sessions
      (session_withMeter w i fun around f => exists_effect_drop around f unwinding) k

theorem population_acts (w : World) (k : Nat) (as : List Action) :
    (w.acts enabled as).population k = w.population k + creations enabled k w as := by
  induction as generalizing w with
  | nil => rfl
  | cons a as ih =>
    have hrest := ih (w.act enabled a)
    rw [population_act] at hrest
    rw [creations, ← Nat.add_assoc]
    exact hrest

/-! ## Identities that stay -/

theorem place_change {w w' : World} (h : Change enabled w w') :
    ∃ ps, w'.places = w.places ++ ps := by
  cases h with
  | environment clock metrics => exact ⟨[], (List.append_nil _).symm⟩
  | affect i m session t g hm hsession heffect =>
    exact ⟨[], by rw [places_affected hm heffect.meter_change.place_eq, List.append_nil]⟩
  | create k session category operation parent context hsession =>
    exact ⟨_, places_created w k session category operation parent context⟩

/-- A meter keeps its place: new meters come behind it. -/
theorem places_acts (enabled : Enabled) (w : World) (as : List Action) :
    ∃ ps, (w.acts enabled as).places = w.places ++ ps := by
  refine acts_change_induction enabled (P := fun w' => ∃ ps, w'.places = w.places ++ ps)
    ?_ ?_ w as ⟨[], (List.append_nil _).symm⟩
  · rintro w' w'' h ⟨ps, hps⟩
    obtain ⟨qs, hqs⟩ := place_change h
    exact ⟨ps ++ qs, by rw [hqs, hps, List.append_assoc]⟩
  · rintro w' w'' hmeters - ⟨ps, hps⟩
    exact ⟨ps, by rw [← hps, places, hmeters, places]⟩

/-- A meter stays in its session and keeps its identity, whatever happens. -/
theorem exists_same_identity (w : World) (as : List Action) {i : Nat} {m : Meter}
    (hm : w.meters[i]? = some m) :
    ∃ m', (w.acts enabled as).meters[i]? = some m' ∧ m'.session = m.session ∧
      m'.snapshot.fullId = m.snapshot.fullId := by
  obtain ⟨ps, hps⟩ := places_acts enabled w as
  have hplace : w.places[i]? = some m.place := by rw [places, List.getElem?_map, hm]; rfl
  have hplace' : (w.acts enabled as).places[i]? = some m.place := by
    rw [hps, List.getElem?_append_left (List.getElem?_eq_some_iff.mp hplace).1, hplace]
  rw [places, List.getElem?_map, Option.map_eq_some_iff] at hplace'
  obtain ⟨m', hm', hsame⟩ := hplace'
  exact ⟨m', hm', congrArg Place.session hsame, Meter.fullId_eq_of_place hsame⟩

end

end World

open World

/-- In every run of a script, a session that has created fewer meters than a word can count has as
many meters as it has created, and their full identities are all different. Every meter keeps its
identity to the end of the run. -/
theorem full_ids_distinct {α : Type} (l : Logger) (steps : List (Step α)) (w : World)
    (hw : w.Untouched) (n : Nat) :
    (∀ k, creations l.enabled k w (historyAt l steps w n) < 2 ^ 64 →
      (worldAt l steps w n).population k = creations l.enabled k w (historyAt l steps w n) ∧
        ∀ (i j : Nat) (m m' : Meter), (worldAt l steps w n).meters[i]? = some m →
          (worldAt l steps w n).meters[j]? = some m' → m.session = k → m'.session = k →
            i ≠ j → m.snapshot.fullId ≠ m'.snapshot.fullId) ∧
      ∀ (i : Nat) (m : Meter), (worldAt l steps w n).meters[i]? = some m → ∀ n' ≥ n,
        ∃ m', (worldAt l steps w n').meters[i]? = some m' ∧ m'.session = m.session ∧
          m'.snapshot.fullId = m.snapshot.fullId := by
  constructor
  · intro k hcreations
    have hpopulation : (worldAt l steps w n).population k =
        creations l.enabled k w (historyAt l steps w n) := by
      have hnone : w.population k = 0 := by simp [population, hw.meters]
      rw [worldAt, population_acts, hnone, Nat.zero_add]
    refine ⟨hpopulation, ?_⟩
    intro i j m m' hm hm' hk hk' hij
    have hnumbered : (worldAt l steps w n).Numbered k :=
      numbered_acts l.enabled w hw _ k (hpopulation ▸ hcreations)
    exact hnumbered.fullId_ne hm hm' hk hk' hij
  · intro i m hm n' hn'
    obtain ⟨as, has⟩ : ∃ as, historyAt l steps w n' = historyAt l steps w n ++ as := by
      obtain ⟨as, has⟩ := List.take_prefix_take_left (l := (runScript l steps w).1.history) hn'
      exact ⟨as, has.symm⟩
    rw [worldAt, has, acts_append]
    exact exists_same_identity _ as hm

/-- An operation of a category and the category with the same text are told apart, and so is a part
whose name looks like an identity. -/
theorem full_ids_distinct_slashes :
    ∃ m m' m'', (worldAt Logger.recorder ([.create "x" "a" (some "b"), .create "y" "a/b" none,
        .createPart "x" "c#1" "z"] : List (Step Unit)) { sessions := [{ id := "s" }] } 3).meters =
          [m, m', m''] ∧
      m.snapshot.fullId = "a/b#1" ∧ m'.snapshot.fullId = "a/b#2" ∧
      m''.snapshot.fullId = "a/b/c#1#1" ∧ m.snapshot.fullId ≠ m'.snapshot.fullId := by
  obtain ⟨hdistinct, -⟩ := full_ids_distinct Logger.recorder
    ([.create "x" "a" (some "b"), .create "y" "a/b" none, .createPart "x" "c#1" "z"] :
      List (Step Unit)) { sessions := [{ id := "s" }] } ⟨rfl, rfl, rfl, by simp⟩ 3
  obtain ⟨-, hne⟩ := hdistinct 0 (by decide +kernel)
  exact ⟨_, _, _, rfl, by decide +kernel, by decide +kernel, by decide +kernel,
    hne 0 1 _ _ rfl rfl rfl rfl (by decide)⟩

end Metering
