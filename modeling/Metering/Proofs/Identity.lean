import Metering.Proofs.Decimal
import Metering.Proofs.Text
import Metering.Proofs.World

/-!
# Proofs: identities within a session

The full identity of a meter is its key, a number sign and its position, so two meters have the same
one only if they agree in both. A session numbers the meters of each key from one, as long as there
are fewer meters than a word can count: the position of a meter is one more than the number of
earlier meters of the same session and key. Hence no two meters of one session share an identity.
-/

namespace Metering

/-! ## The text of an identity -/

theorem Decimal.text_injective {m n : Nat} (h : text m = text n) : m = n := by
  have hspan (k : Nat) : spanDigits (text k) = (digits k, []) := by
    have := spanDigits_digitsText (digits k) [] (fun c hc => absurd hc (by simp))
    rwa [List.append_nil] at this
  have hdigits : digits m = digits n := by
    have := congrArg spanDigits h
    rw [hspan, hspan] at this
    exact (Prod.mk.inj this).1
  rw [← ofDigits_digits m, hdigits, ofDigits_digits]

theorem Decimal.hash_notMem_text (n : Nat) : '#' ∉ text n := by
  intro h
  obtain ⟨d, -, hd⟩ := List.mem_map.mp h
  revert hd
  revert d
  decide

theorem Snapshot.fullId_eq (s : Snapshot) :
    s.fullId = positionKey s.category s.operation ++ "#" ++
      String.ofList (Decimal.text s.position.toNat) := by
  unfold fullId positionKey
  cases s.operation <;> rfl

/-- The identity tells the key and the position. -/
theorem Snapshot.fullId_inj {s s' : Snapshot} (h : s.fullId = s'.fullId) :
    positionKey s.category s.operation = positionKey s'.category s'.operation ∧
      s.position = s'.position := by
  rw [fullId_eq, fullId_eq] at h
  have hlist := congrArg String.toList h
  simp only [String.toList_append, String.toList_ofList, List.append_assoc] at hlist
  obtain ⟨hkey, htext⟩ := append_separator_inj (Decimal.hash_notMem_text _)
    (Decimal.hash_notMem_text _) hlist
  exact ⟨String.toList_inj.mp hkey, UInt64.toNat_inj.mp (Decimal.text_injective htext)⟩

/-! ## Positions given out -/

namespace Positions

theorem lookup_set (key k : String) (n : UInt64) (cs : List (String × UInt64)) :
    (set key n cs).lookup k = if k = key then some n else cs.lookup k := by
  have hbeq (a b : String) : (a == b) = decide (a = b) := rfl
  induction cs with
  | nil => by_cases h : k = key <;> simp [set, List.lookup_cons, hbeq, h]
  | cons c cs ih =>
    obtain ⟨k', m⟩ := c
    by_cases hk' : k' = key
    · by_cases h : k = key <;> simp [set, List.lookup_cons, hbeq, hk', h]
    · by_cases h : k = k'
      · simp [set, hk', h]
      · simp [set, List.lookup_cons, hbeq, hk', h, ih]

/-- Giving out a position counts one more for its key and nothing for the others. -/
theorem last_next (p : Positions) (category : String) (operation : Option String) (k : String) :
    (p.next category operation).2.last k =
      if k = positionKey category operation then Word.satAdd (p.last k) 1 else p.last k := by
  simp only [last, next, lookup_set]
  split
  · next h => rw [h]; rfl
  · rfl

end Positions

/-! ## Numbered meters -/

/-- What a session numbers a meter by. -/
structure Place where
  /-- The number of the session. -/
  session : Nat
  /-- The key under which the meter is counted. -/
  key : String
  /-- The position. -/
  position : UInt64

/-- Whether something was counted in a session under a key. -/
def Place.isOf (k : Nat) (key : String) (p : Place) : Bool := p.session == k && p.key == key

/-- The place of a meter. -/
def Meter.place (m : Meter) : Place :=
  ⟨m.session, positionKey m.snapshot.category m.snapshot.operation, m.snapshot.position⟩

theorem Meter.Change.place_eq {now : UInt64} {m m' : Meter} (h : Change now m m') :
    m'.place = m.place := by
  cases h <;> rfl

theorem Meter.fullId_inj {m m' : Meter} (hsession : m.session = m'.session)
    (h : m.snapshot.fullId = m'.snapshot.fullId) : m.place = m'.place := by
  obtain ⟨hkey, hposition⟩ := Snapshot.fullId_inj h
  simp only [place, hsession, hkey, hposition]

theorem Meter.fullId_eq_of_place {m m' : Meter} (h : m.place = m'.place) :
    m.snapshot.fullId = m'.snapshot.fullId := by
  simp only [place, Place.mk.injEq] at h
  rw [Snapshot.fullId_eq, Snapshot.fullId_eq, h.2.1, h.2.2]

namespace World

/-- The places of the meters, in the order of creation. -/
def places (w : World) : List Place := w.meters.map Meter.place

/-- The number of meters that a session has created. -/
def population (w : World) (k : Nat) : Nat := w.meters.countP (·.session == k)

/-- Whether a session has counted its meters. -/
structure Numbered (w : World) (k : Nat) : Prop where
  /-- The session knows how many meters it has for each key. -/
  last : ∀ session, w.sessions[k]? = some session → ∀ key,
    (session.positions.last key).toNat = w.places.countP (Place.isOf k key)
  /-- The position of a meter is one more than the number of earlier ones of its key. -/
  position : ∀ (i : Nat) p, w.places[i]? = some p → p.session = k →
    p.position.toNat = (w.places.take i).countP (Place.isOf k p.key) + 1

theorem set_eq_self {α : Type} {l : List α} {i : Nat} {a : α} (h : l[i]? = some a) :
    l.set i a = l := by
  obtain ⟨hlt, rfl⟩ := List.getElem?_eq_some_iff.mp h
  exact List.set_getElem_self hlt

/-- What is done to meters does not change their places. -/
theorem places_affected {w : World} {i : Nat} {m : Meter} {g : Focus} (hm : w.meters[i]? = some m)
    (hplace : g.meter.place = m.place) : (w.affected i g).places = w.places := by
  rw [places, places, affected, List.map_set, hplace]
  exact set_eq_self (by rw [List.getElem?_map, hm]; rfl)

theorem places_created (w : World) (k : Nat) (session : Session) (category : String)
    (operation parent : Option String) (context : Context) :
    (w.created k session category operation parent context).places =
      w.places ++ [⟨k, positionKey category operation,
        Word.satAdd (session.positions.last (positionKey category operation)) 1⟩] := by
  simp only [places, created, List.map_append]
  rfl

theorem countP_places_le (w : World) (k : Nat) (key : String) :
    w.places.countP (Place.isOf k key) ≤ w.population k := by
  rw [places, List.countP_map, population]
  apply List.countP_mono_left
  intro m _ hm
  simp only [Function.comp_apply, Place.isOf, Bool.and_eq_true] at hm
  exact hm.1

theorem population_created (w : World) (k k' : Nat) (session : Session) (category : String)
    (operation parent : Option String) (context : Context) :
    (w.created k' session category operation parent context).population k =
      w.population k + if k' = k then 1 else 0 := by
  simp [population, created]

/-- A list that grows at its end has its old entries and the new one. -/
theorem getElem?_concat_cases {α : Type} {l : List α} {a b : α} {i : Nat}
    (h : (l ++ [a])[i]? = some b) : l[i]? = some b ∨ i = l.length ∧ a = b := by
  rw [List.getElem?_append] at h
  split at h
  · exact Or.inl h
  · obtain ⟨hlt, hb⟩ := List.getElem?_eq_some_iff.mp h
    simp only [List.length_singleton] at hlt
    exact Or.inr ⟨by omega, by simpa using hb⟩

/-- Where the positions of a session do not change and no meter of it comes, it goes on counting. -/
theorem Numbered.of_eq {w w' : World} {k : Nat} (hw : w.Numbered k)
    (hsessions : w'.sessions = w.sessions) (hplaces : w'.places = w.places) : w'.Numbered k := by
  constructor
  · rw [hsessions, hplaces]
    exact hw.last
  · rw [hplaces]
    exact hw.position

/-- A meter of another session is not counted. -/
theorem numbered_created_other {w : World} {k k' : Nat} (hw : w.Numbered k) (hk : k' ≠ k)
    (session : Session) (category : String) (operation parent : Option String)
    (context : Context) :
    (w.created k' session category operation parent context).Numbered k := by
  constructor
  · intro session' hsession' key
    rw [places_created, List.countP_append, List.countP_singleton]
    have hset : (w.sessions.set k'
        { session with positions := (session.positions.next category operation).2 })[k]? =
          some session' := hsession'
    rw [List.getElem?_set_ne hk] at hset
    rw [hw.last session' hset key]
    simp [Place.isOf, hk]
  · intro i p hp hpk
    rw [places_created] at hp ⊢
    rcases getElem?_concat_cases hp with hp | ⟨-, rfl⟩
    · have hi := (List.getElem?_eq_some_iff.mp hp).1
      rw [List.take_append_of_le_length (Nat.le_of_lt hi)]
      exact hw.position i p hp hpk
    · exact absurd hpk hk

/-- A new meter is counted once, as long as the count is not at the largest word. -/
theorem numbered_created {w : World} {k : Nat} (hw : w.Numbered k) (session : Session)
    (category : String) (operation parent : Option String) (context : Context)
    (hsession : w.sessions[k]? = some session) (hpopulation : w.population k + 1 < 2 ^ 64) :
    (w.created k session category operation parent context).Numbered k := by
  have hlast := hw.last session hsession
  have hnext (key : String) : (Word.satAdd (session.positions.last key) 1).toNat =
      w.places.countP (Place.isOf k key) + 1 := by
    have := w.countP_places_le k key
    rw [Word.toNat_satAdd, hlast]
    simp only [UInt64.toNat_one]
    omega
  constructor
  · intro session' hsession' key
    rw [places_created, List.countP_append, List.countP_singleton]
    have hset : (w.sessions.set k
        { session with positions := (session.positions.next category operation).2 })[k]? =
          some session' := hsession'
    rw [List.getElem?_set_self (List.getElem?_eq_some_iff.mp hsession).1] at hset
    obtain rfl := Option.some.inj hset
    rw [Positions.last_next]
    by_cases hkey : key = positionKey category operation
    · rw [if_pos hkey, hnext]
      simp [Place.isOf, hkey]
    · have hkey' : ¬ positionKey category operation = key := fun h => hkey h.symm
      rw [if_neg hkey, hlast]
      simp [Place.isOf, hkey']
  · intro i p hp hpk
    rw [places_created] at hp ⊢
    rcases getElem?_concat_cases hp with hp | ⟨rfl, rfl⟩
    · have hi := (List.getElem?_eq_some_iff.mp hp).1
      rw [List.take_append_of_le_length (Nat.le_of_lt hi)]
      exact hw.position i p hp hpk
    · rw [List.take_left]
      exact hnext _

/-- A change keeps the numbering of a session, as long as it has fewer meters than a word can
count. -/
theorem numbered_change {enabled : Enabled} {w w' : World} (h : Change enabled w w') (k : Nat)
    (hw : w.population k < 2 ^ 64 → w.Numbered k) : w'.population k < 2 ^ 64 → w'.Numbered k := by
  intro hpopulation
  cases h with
  | environment clock metrics => exact (hw hpopulation).of_eq rfl rfl
  | affect i m session t g hm hsession heffect =>
    have hplaces := places_affected hm heffect.meter_change.place_eq
    have hsame : (w.affected i g).population k = w.population k := by
      have hcount (w : World) : w.population k = w.places.countP (·.session == k) := by
        rw [places, List.countP_map]
        rfl
      rw [hcount, hcount, hplaces]
    exact (hw (hsame ▸ hpopulation)).of_eq rfl hplaces
  | create k' session category operation parent context hsession =>
    rw [population_created] at hpopulation
    by_cases hk : k' = k
    · subst hk
      rw [if_pos rfl] at hpopulation
      exact numbered_created (hw (by omega)) session category operation parent context hsession
        hpopulation
    · rw [if_neg hk] at hpopulation
      exact numbered_created_other (hw hpopulation) hk session category operation parent context

theorem numbered_acts (enabled : Enabled) (w : World) (hw : w.Untouched) (as : List Action)
    (k : Nat) (hpopulation : (w.acts enabled as).population k < 2 ^ 64) :
    (w.acts enabled as).Numbered k := by
  refine acts_change_induction enabled (P := fun w => w.population k < 2 ^ 64 → w.Numbered k)
    (fun _ _ h => numbered_change h k) (fun w w' hmeters hsessions hw hpopulation => ?_) w as
    (fun _ => ?_) hpopulation
  · rw [population, hmeters] at hpopulation
    exact (hw hpopulation).of_eq hsessions (congrArg (List.map Meter.place) hmeters)
  · constructor
    · intro session hsession key
      rw [places, hw.meters, hw.positions session (List.mem_of_getElem? hsession)]
      rfl
    · intro i p hp
      simp [places, hw.meters] at hp

/-- No two meters of a session have the same full identity. -/
theorem Numbered.fullId_ne {w : World} {k : Nat} (hw : w.Numbered k) {i j : Nat} {m m' : Meter}
    (hi : w.meters[i]? = some m) (hj : w.meters[j]? = some m') (hm : m.session = k)
    (hm' : m'.session = k) (hij : i ≠ j) : m.snapshot.fullId ≠ m'.snapshot.fullId := by
  wlog hlt : i < j generalizing i j m m'
  · exact (this hj hi hm' hm hij.symm (by omega)).symm
  intro h
  have hplace := Meter.fullId_inj (hm.trans hm'.symm) h
  have hpi := hw.position i m.place (by rw [places, List.getElem?_map, hi]; rfl) hm
  have hpj := hw.position j m'.place (by rw [places, List.getElem?_map, hj]; rfl) hm'
  rw [hplace] at hpi
  -- The earlier meter is one of those that were counted for the later one.
  have hcounted : (w.places.take (i + 1)).countP (Place.isOf k m'.place.key) =
      (w.places.take i).countP (Place.isOf k m'.place.key) + 1 := by
    have hk : m'.place.session = k := hm'
    rw [List.take_add_one, places, List.getElem?_map, hi, List.countP_append]
    simp [hplace, Place.isOf, hk]
  have hsublist : (w.places.take (i + 1)).Sublist (w.places.take j) :=
    List.take_sublist_take_left hlt
  have hle := hsublist.countP_le (p := Place.isOf k m'.place.key)
  omega

end World
end Metering
