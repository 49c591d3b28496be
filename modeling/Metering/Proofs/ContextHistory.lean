import Mathlib.Data.List.Forall2
import Mathlib.Data.Set.Card
import Metering.Proofs.Json.Compact
import Metering.Proofs.Json.Soundness
import Metering.Proofs.Payload.Meaning

/-!
# Proofs: contexts and their history

What a context shows is determined by what was done to it. Whatever is done comes down to three
edits: a name is set to a value, a name is dropped, or all names are. Collecting pairs, or reading
an object of texts, drops all names and then sets them one by one.

A name has the value that it was last set to, unless it was dropped since. The names are in the
order in which they came in; a name comes in where it is set while it is absent, and keeps its place
until it is dropped.
-/

namespace Metering.Context

open Json (Value Spells SpellsObject SoundMember)

/-! ## Edits -/

/-- A change of a context. -/
inductive Edit where
  /-- A name is set to a value. -/
  | set (key value : String)
  /-- A name is dropped. -/
  | drop (key : String)
  /-- All names are dropped. -/
  | dropAll

/-- Whether an edit drops a name. -/
def Edit.Drops (key : String) : Edit → Prop
  | .set _ _ => False
  | .drop k => k = key
  | .dropAll => True

/-- Whether an edit sets or drops a name. -/
def Edit.Touches (key : String) : Edit → Prop
  | .set k _ => k = key
  | e => e.Drops key

/-- Whether a name has a value after some edits: it was set to the value, and neither set again nor
dropped since. -/
def Holds (edits : List Edit) (key value : String) : Prop :=
  ∃ before later, edits = before ++ .set key value :: later ∧ ∀ e ∈ later, ¬ e.Touches key

/-- Whether a name is absent after some edits. -/
def Absent (edits : List Edit) (key : String) : Prop := ∀ value, ¬ Holds edits key value

/-- Whether a name came in after the edits `before`: it was absent then, was set next, and has not
been dropped since. -/
def CameIn (edits : List Edit) (key : String) (before : List Edit) : Prop :=
  Absent before key ∧
    ∃ value later, edits = before ++ .set key value :: later ∧ ∀ e ∈ later, ¬ e.Drops key

/-- Whether one name came in before another. -/
def CameInBefore (edits : List Edit) (key key' : String) : Prop :=
  ∃ before before', CameIn edits key before ∧ CameIn edits key' before' ∧
    before.length < before'.length

/-- The context after an edit. -/
def edit (c : Context) : Edit → Context
  | .set key value => c.insert key value
  | .drop key => c.erase key
  | .dropAll => .empty

theorem not_holds_nil (key value : String) : ¬ Holds [] key value := by
  rintro ⟨before, later, h, -⟩
  simp at h

/-- What one more edit makes of the names and values. -/
theorem holds_concat_iff {edits : List Edit} {e : Edit} {key value : String} :
    Holds (edits ++ [e]) key value ↔
      e = .set key value ∨ ¬ e.Touches key ∧ Holds edits key value := by
  constructor
  · rintro ⟨before, later, h, hlater⟩
    rcases List.eq_nil_or_concat' later with rfl | ⟨later, e', rfl⟩
    · obtain ⟨-, he⟩ := List.append_inj' h rfl
      exact .inl (List.singleton_inj.mp he)
    · rw [← List.cons_append, ← List.append_assoc] at h
      obtain ⟨rfl, he⟩ := List.append_inj' h rfl
      obtain rfl := List.singleton_inj.mp he
      rw [List.forall_mem_append, List.forall_mem_singleton] at hlater
      exact .inr ⟨hlater.2, before, later, rfl, hlater.1⟩
  · rintro (rfl | ⟨he, before, later, rfl, hlater⟩)
    · exact ⟨edits, [], rfl, by simp⟩
    · refine ⟨before, later ++ [e], by simp, ?_⟩
      rw [List.forall_mem_append, List.forall_mem_singleton]
      exact ⟨hlater, he⟩

/-- A name that came in stays where it is until it is dropped. -/
theorem CameIn.concat {edits before : List Edit} {e : Edit} {key : String}
    (h : CameIn edits key before) (he : ¬ e.Drops key) : CameIn (edits ++ [e]) key before := by
  obtain ⟨habsent, value, later, rfl, hlater⟩ := h
  refine ⟨habsent, value, later ++ [e], by simp, ?_⟩
  rw [List.forall_mem_append, List.forall_mem_singleton]
  exact ⟨hlater, he⟩

theorem CameIn.length_lt {edits before : List Edit} {key : String} (h : CameIn edits key before) :
    before.length < edits.length := by
  obtain ⟨-, value, later, rfl, -⟩ := h
  simp

/-- A name that was set and not dropped since has a value. -/
theorem exists_holds_of_set (before : List Edit) {key : String} (value : String)
    {later : List Edit} (h : ∀ e ∈ later, ¬ e.Drops key) :
    ∃ v, Holds (before ++ .set key value :: later) key v := by
  induction later using List.reverseRecOn with
  | nil => exact ⟨value, holds_concat_iff.mpr (.inl rfl)⟩
  | append_singleton later e ih =>
    rw [List.forall_mem_append, List.forall_mem_singleton] at h
    obtain ⟨v, hv⟩ := ih h.1
    rw [← List.cons_append, ← List.append_assoc]
    by_cases htouches : e.Touches key
    · cases e with
      | set k v' =>
        obtain rfl : k = key := htouches
        exact ⟨v', holds_concat_iff.mpr (.inl rfl)⟩
      | _ => exact absurd htouches h.2
    · exact ⟨v, holds_concat_iff.mpr (.inr ⟨htouches, hv⟩)⟩

/-- No name comes in while it is present. -/
theorem CameIn.length_le {edits before before' : List Edit} {key : String}
    (h : CameIn edits key before) (h' : CameIn edits key before') :
    before'.length ≤ before.length := by
  obtain ⟨-, value, later, rfl, hlater⟩ := h
  obtain ⟨habsent, value', later', heq, -⟩ := h'
  by_contra hlt
  -- the edits up to the second time include the first one, and nothing drops the name in between
  rcases List.append_eq_append_iff.mp heq with ⟨mid, hbefore', hmid⟩ | ⟨mid, hbefore, -⟩
  · cases mid with
    | nil => simp [hbefore'] at hlt
    | cons e mid =>
      obtain ⟨rfl, rfl⟩ := List.cons.inj hmid
      have hmid := (List.forall_mem_append.mp hlater).1
      obtain ⟨v, hv⟩ := exists_holds_of_set before value hmid
      exact habsent v (hbefore' ▸ hv)
  · simp [hbefore] at hlt

theorem CameIn.unique {edits before before' : List Edit} {key : String}
    (h : CameIn edits key before) (h' : CameIn edits key before') : before = before' := by
  have hlength := Nat.le_antisymm (h'.length_le h) (h.length_le h')
  obtain ⟨-, value, later, rfl, -⟩ := h
  obtain ⟨-, value', later', heq, -⟩ := h'
  exact List.append_inj_left heq hlength

theorem cameIn_set {edits : List Edit} {key : String} (h : Absent edits key) (value : String) :
    CameIn (edits ++ [.set key value]) key edits :=
  ⟨h, value, [], rfl, by simp⟩

theorem CameInBefore.concat {edits : List Edit} {e : Edit} {key key' : String}
    (h : CameInBefore edits key key') (he : ¬ e.Drops key) (he' : ¬ e.Drops key') :
    CameInBefore (edits ++ [e]) key key' := by
  obtain ⟨before, before', hkey, hkey', hlt⟩ := h
  exact ⟨before, before', hkey.concat he, hkey'.concat he', hlt⟩

/-! ## Contexts after edits -/

/-- Whether a context is what some edits lead to. -/
structure Follows (c : Context) (edits : List Edit) : Prop where
  /-- Each name has the value that the edits gave it. -/
  get_iff : ∀ k v, c.get? k = some v ↔ Holds edits k v
  /-- Each name came in at some time. -/
  came_in : ∀ k ∈ c.keys, ∃ before, CameIn edits k before
  /-- The names are in the order in which they came in. -/
  order : c.keys.Pairwise (CameInBefore edits)

theorem follows_empty : Follows .empty [] where
  get_iff k v := by
    constructor
    · intro h
      cases h
    · exact fun h => absurd h (not_holds_nil k v)
  came_in _ hk := absurd hk List.not_mem_nil
  order := List.Pairwise.nil

theorem Follows.mem_keys_iff {c : Context} {edits : List Edit} (h : Follows c edits) (k : String) :
    k ∈ c.keys ↔ ∃ v, Holds edits k v := by
  rw [← not_iff_not, ← get?_eq_none_iff, Option.eq_none_iff_forall_ne_some]
  simp only [ne_eq, h.get_iff, not_exists]

/-! ## One edit -/

/-- Setting a present name changes its value only, and an absent name comes in after the others. -/
theorem Follows.set {c : Context} {edits : List Edit} (h : Follows c edits) (key value : String) :
    Follows (c.insert key value) (edits ++ [.set key value]) := by
  have hkeep (k : String) : ¬ (Edit.set key value).Drops k := id
  have hcame : ∀ k ∈ c.keys, ∃ before, CameIn (edits ++ [.set key value]) k before := by
    intro k hk
    obtain ⟨before, hbefore⟩ := h.came_in k hk
    exact ⟨before, hbefore.concat (hkeep k)⟩
  have horder : c.keys.Pairwise (CameInBefore (edits ++ [.set key value])) :=
    h.order.imp fun hbefore => hbefore.concat (hkeep _) (hkeep _)
  have hget : ∀ k v, (c.insert key value).get? k = some v ↔
      Holds (edits ++ [.set key value]) k v := by
    intro k v
    rw [get?_insert, holds_concat_iff, ← h.get_iff]
    by_cases hk : k = key
    · subst hk
      simp [Edit.Touches]
    · simp [Edit.Touches, hk, Ne.symm hk]
  by_cases hkey : key ∈ c.keys
  · have hkeys : (c.insert key value).keys = c.keys := by rw [keys_insert, if_pos hkey]
    exact ⟨hget, hkeys ▸ hcame, hkeys ▸ horder⟩
  · have hkeys : (c.insert key value).keys = c.keys ++ [key] := by rw [keys_insert, if_neg hkey]
    have hnew := cameIn_set (not_exists.mp (mt (h.mem_keys_iff key).mpr hkey)) value
    refine ⟨hget, ?_, ?_⟩
    · rw [hkeys, List.forall_mem_append, List.forall_mem_singleton]
      exact ⟨hcame, edits, hnew⟩
    · rw [hkeys, List.pairwise_append]
      refine ⟨horder, List.pairwise_singleton _ _, fun k hk k' hk' => ?_⟩
      obtain rfl := List.mem_singleton.mp hk'
      obtain ⟨before, hbefore⟩ := h.came_in k hk
      exact ⟨before, edits, hbefore.concat (hkeep k), hnew, hbefore.length_lt⟩

/-- Dropping a name leaves the others where they are. -/
theorem Follows.drop {c : Context} {edits : List Edit} (h : Follows c edits) (key : String) :
    Follows (c.erase key) (edits ++ [.drop key]) := by
  have hmem (k : String) : k ∈ (c.erase key).keys ↔ k ∈ c.keys ∧ ¬ (Edit.drop key).Drops k := by
    rw [keys_erase, List.mem_filter, bne_iff_ne, ne_comm]
    rfl
  constructor
  case get_iff =>
    intro k v
    rw [get?_erase, holds_concat_iff, ← h.get_iff]
    by_cases hk : k = key
    · subst hk
      simp [Edit.Touches, Edit.Drops]
    · simp [Edit.Touches, Edit.Drops, hk, Ne.symm hk]
  case came_in =>
    intro k hk
    obtain ⟨hk, hkeep⟩ := (hmem k).mp hk
    obtain ⟨before, hbefore⟩ := h.came_in k hk
    exact ⟨before, hbefore.concat hkeep⟩
  case order =>
    have horder : (c.erase key).keys.Pairwise (CameInBefore edits) := by
      rw [keys_erase]
      exact h.order.filter _
    refine horder.imp_of_mem fun hk hk' hbefore => ?_
    exact hbefore.concat ((hmem _).mp hk).2 ((hmem _).mp hk').2

theorem follows_dropAll (edits : List Edit) : Follows .empty (edits ++ [.dropAll]) where
  get_iff k v := by
    have hdrops : (Edit.dropAll).Touches k := trivial
    simp [holds_concat_iff, hdrops, get?, empty]
  came_in _ hk := absurd hk List.not_mem_nil
  order := List.Pairwise.nil

/-- Each edit goes on with what the edits before it led to. -/
theorem Follows.edit {c : Context} {edits : List Edit} (h : Follows c edits) (e : Edit) :
    Follows (c.edit e) (edits ++ [e]) := by
  cases e with
  | set key value => exact h.set key value
  | drop key => exact h.drop key
  | dropAll => exact follows_dropAll edits

theorem follows_foldl (edits : List Edit) : Follows (edits.foldl Context.edit .empty) edits := by
  induction edits using List.reverseRecOn with
  | nil => exact follows_empty
  | append_singleton edits e ih =>
    rw [List.foldl_append]
    exact ih.edit e

/-! ## Reading an object of texts -/

theorem soundMember_readEntry : SoundMember readEntry entry? := by
  intro c c' k s r h
  obtain ⟨s', hcolon, h⟩ := Json.of_bind_eq_ok h
  obtain ⟨⟨v, r'⟩, hread, h⟩ := Json.of_bind_eq_ok h
  cases h
  obtain ⟨b, hb, rfl⟩ := Json.of_readColon hcolon
  obtain ⟨b', t, hb', ht, rfl⟩ := Json.of_readText hread
  exact ⟨.text v, b, b', t, hb, hb', ht, rfl, rfl⟩

theorem of_read {s r : List Char} {c : Context} (h : read s = .ok (c, r)) :
    ∃ b ms t, Json.Blank b ∧ Spells (.value (.object ms)) t ∧ s = b ++ (t ++ r) ∧
      ms.foldlM entry? empty = some c := by
  unfold read at h
  split at h
  · cases h
  · next r' hskip =>
    obtain ⟨b, hb, rfl⟩ := Json.blank_of_skipSpaces hskip
    obtain ⟨ms, t, ht, rfl, hfold⟩ := Json.spells_of_readMembers soundMember_readEntry h
    exact ⟨b, ms, _, hb, ht, rfl, hfold⟩
  · cases h

/-- A text shows a context exactly if it spells an object of texts, whose members are then inserted
one by one. -/
theorem decode_eq_ok_iff (text : String) (c : Context) :
    decode text = .ok c ↔
      ∃ es, SpellsObject (textMembers es) text.toList ∧
        c = es.foldl (fun c (k, v) => c.insert k v) .empty := by
  constructor
  · intro h
    obtain ⟨b', hb', hread⟩ := Json.readAll_eq_ok_iff.mp h
    obtain ⟨b, ms, t, hb, ht, htext, hfold⟩ := of_read hread
    obtain ⟨es, rfl, rfl⟩ := (foldlM_entry?_eq_some_iff ms empty c).mp hfold
    exact ⟨es, ⟨b, t, b', hb, ht, hb', htext⟩, rfl⟩
  · rintro ⟨es, ⟨b, t, b', hb, ht, hb', htext⟩, hc⟩
    have hmeaning : meaning (.object (textMembers es)) = some c :=
      (foldlM_entry?_eq_some_iff _ empty c).mpr ⟨es, rfl, hc⟩
    have hend : Json.EndsNumeral b' := by
      have hnil : Json.EndsNumeral [] := fun _ hd => by cases hd
      have happend := Json.endsNumeral_blank hb' hnil
      rwa [List.append_nil] at happend
    have hread := recognizes_read ht hb hend
    rw [hmeaning, ← htext] at hread
    exact Json.readAll_eq_ok_iff.mpr ⟨b', hb', Json.toOption_eq_some.mp hread⟩

/-! ## Operations -/

/-- What can be done to a context. -/
inductive Operation where
  /-- A name is given a value. -/
  | insert (key value : String)
  /-- A name is removed. -/
  | remove (key : String)
  /-- All entries are removed. -/
  | clear
  /-- The context is made from pairs. -/
  | collect (pairs : List (String × String))
  /-- The context is read from a text. -/
  | deserialize (text : String)

/-- The context after an operation. A text that cannot be read changes nothing. -/
def perform (c : Context) : Operation → Context
  | .insert key value => c.insert key value
  | .remove key => (c.remove key).2
  | .clear => .empty
  | .collect pairs => ofList pairs
  | .deserialize text =>
    match decode text with
    | .ok d => d
    | .error _ => c

/-- The edits that set names to values one by one. -/
def sets (pairs : List (String × String)) : List Edit := pairs.map fun (k, v) => .set k v

/-- The edits that an operation comes down to. -/
inductive Operation.Edits : Operation → List Edit → Prop
  /-- A value is set. -/
  | insert {key value : String} : Edits (.insert key value) [.set key value]
  /-- A name is dropped. -/
  | remove {key : String} : Edits (.remove key) [.drop key]
  /-- All names are dropped. -/
  | clear : Edits .clear [.dropAll]
  /-- The pairs take the place of what was there. -/
  | collect {pairs : List (String × String)} : Edits (.collect pairs) (.dropAll :: sets pairs)
  /-- The members of an object of texts take the place of what was there. -/
  | deserialize {text : String} {pairs : List (String × String)} :
      SpellsObject (textMembers pairs) text.toList →
      Edits (.deserialize text) (.dropAll :: sets pairs)
  /-- Another text changes nothing. -/
  | refuse {text : String} :
      (∀ pairs, ¬ SpellsObject (textMembers pairs) text.toList) → Edits (.deserialize text) []

theorem foldl_sets (pairs : List (String × String)) (c : Context) :
    (sets pairs).foldl edit c = pairs.foldl (fun c (k, v) => c.insert k v) c := by
  rw [sets, List.foldl_map]
  rfl

theorem Operation.exists_edits (op : Operation) : ∃ part, op.Edits part := by
  cases op with
  | insert key value => exact ⟨_, .insert⟩
  | remove key => exact ⟨_, .remove⟩
  | clear => exact ⟨_, .clear⟩
  | collect pairs => exact ⟨_, .collect⟩
  | deserialize text =>
    by_cases h : ∃ pairs, SpellsObject (textMembers pairs) text.toList
    · obtain ⟨pairs, hpairs⟩ := h
      exact ⟨_, .deserialize hpairs⟩
    · exact ⟨_, .refuse (not_exists.mp h)⟩

/-- An operation does what its edits do. -/
theorem perform_eq_foldl {op : Operation} {part : List Edit} (h : op.Edits part) (c : Context) :
    c.perform op = part.foldl edit c := by
  cases h with
  | insert => rfl
  | remove => exact congrArg Prod.snd (remove_eq c _)
  | clear => rfl
  | collect => exact (foldl_sets _ .empty).symm
  | @deserialize text pairs hpairs =>
    have hread := (decode_eq_ok_iff text _).mpr ⟨pairs, hpairs, rfl⟩
    simp only [perform, hread, List.foldl_cons, foldl_sets]
    rfl
  | @refuse text hnone =>
    cases hread : decode text with
    | ok d =>
      obtain ⟨pairs, hpairs, -⟩ := (decode_eq_ok_iff text d).mp hread
      exact absurd hpairs (hnone pairs)
    | error fault => simp only [perform, hread, List.foldl_nil]

theorem foldl_perform {ops : List Operation} {parts : List (List Edit)}
    (h : List.Forall₂ Operation.Edits ops parts) (c : Context) :
    ops.foldl perform c = parts.flatten.foldl edit c := by
  induction h generalizing c with
  | nil => rfl
  | cons hop _ ih =>
    rw [List.foldl_cons, perform_eq_foldl hop, ih, List.flatten_cons, List.foldl_append]

/-! ## What a context shows -/

/-- Whether a context shows what some edits tell. -/
structure Mirrors (c : Context) (edits : List Edit) : Prop where
  /-- No name comes twice. -/
  nodup : c.keys.Nodup
  /-- A name has the value that it was last set to, unless it was dropped since. -/
  get_iff : ∀ k v, c.get? k = some v ↔ Holds edits k v
  /-- A name is present if it has a value. -/
  contains_iff : ∀ k, c.contains k = true ↔ ∃ v, Holds edits k v
  /-- The names that have a value are counted. -/
  size_eq : c.size = {k | ∃ v, Holds edits k v}.ncard
  /-- The context is empty if no name has a value. -/
  isEmpty_iff : c.isEmpty = true ↔ ∀ k, Absent edits k
  /-- Removing a name returns what looking it up would have returned. -/
  remove_fst : ∀ k, (c.remove k).1 = c.get? k
  /-- The entries are the names that have a value, with their values. -/
  entry_iff : ∀ k v, (k, v) ∈ c.entries ↔ Holds edits k v
  /-- Each name that has a value came in once since it was last absent. -/
  came_in : ∀ k, (∃ v, Holds edits k v) → ∃! before, CameIn edits k before
  /-- The names are in the order in which they came in. -/
  order : c.keys.Pairwise (CameInBefore edits)
  /-- Setting a present name moves no name. -/
  keys_insert : ∀ k v, c.contains k = true → (c.insert k v).keys = c.keys
  /-- The context is read back from its text. -/
  decode_encode : decode c.encode = .ok c

/-- A context is read back from its text, with its names in their order. -/
theorem decode_encode_eq (c : Context) : decode c.encode = .ok c := by
  have hspells : Spells (.value (.object (textMembers c.entries))) c.encode.toList := by
    rw [encode, String.toList_ofList]
    exact Json.spells_render c.toJson
  have hobject : SpellsObject (textMembers c.entries) c.encode.toList :=
    ⟨[], _, [], Json.blank_nil, hspells, Json.blank_nil, by simp⟩
  have hinserted : c = ofList c.entries := ext_entries (entries_ofList c.nodup_keys).symm
  exact (decode_eq_ok_iff c.encode c).mpr ⟨c.entries, hobject, hinserted⟩

theorem Follows.mirrors {c : Context} {edits : List Edit} (h : Follows c edits) :
    Mirrors c edits where
  nodup := c.nodup_keys
  get_iff := h.get_iff
  contains_iff k := contains_iff.trans (h.mem_keys_iff k)
  size_eq := by
    have hset : {k | ∃ v, Holds edits k v} = (c.keys.toFinset : Set String) := by
      ext k
      rw [List.coe_toFinset]
      exact (h.mem_keys_iff k).symm
    have hnodup : c.keys.Nodup := c.nodup_keys
    rw [hset, Set.ncard_coe_finset, List.toFinset_card_of_nodup hnodup, keys, List.length_map,
      size]
  isEmpty_iff := by
    have hempty : c.isEmpty = true ↔ ∀ k, k ∉ c.keys := by
      rw [isEmpty, List.isEmpty_iff, ← List.eq_nil_iff_forall_not_mem, keys, List.map_eq_nil_iff]
    simp only [hempty, h.mem_keys_iff, not_exists, Absent]
  remove_fst k := by rw [remove_eq]
  entry_iff k v := mem_entries_iff.trans (h.get_iff k v)
  came_in k hk := by
    obtain ⟨before, hbefore⟩ := h.came_in k ((h.mem_keys_iff k).mpr hk)
    exact ⟨before, hbefore, fun before' hbefore' => hbefore'.unique hbefore⟩
  order := h.order
  keys_insert k v hk := by rw [Context.keys_insert, if_pos (contains_iff.mp hk)]
  decode_encode := decode_encode_eq c

/-- A context is what its history says. Every sequence of operations on an empty context comes down
to edits, and the context shows what these edits tell: which names are present and with which
values, and in which order they came in. A text is read as a context exactly if it spells an object
of texts, and what is read is what inserting the members one by one makes. -/
theorem history_determines (ops : List Operation) :
    (∃ parts, List.Forall₂ Operation.Edits ops parts) ∧
      (∀ parts, List.Forall₂ Operation.Edits ops parts →
        Mirrors (ops.foldl perform .empty) parts.flatten) ∧
      ∀ text c, decode text = .ok c ↔
        ∃ pairs, SpellsObject (textMembers pairs) text.toList ∧
          c = pairs.foldl (fun c (k, v) => c.insert k v) .empty := by
  refine ⟨?_, ?_, decode_eq_ok_iff⟩
  · choose part hpart using Operation.exists_edits
    exact ⟨ops.map part, List.forall₂_map_right_iff.mpr (List.forall₂_same.mpr fun op _ => hpart op)⟩
  · intro parts hparts
    rw [foldl_perform hparts]
    exact (follows_foldl parts.flatten).mirrors

/-- An object that gives a value to one name twice, and a name that comes in later. -/
theorem history_determines_reread :
    let text := "\x7b \"a\":\"1\",\"\\u0061\":\"2\"\x7d"
    Mirrors ([Operation.deserialize text, .insert "b" "3"].foldl perform .empty)
      [.dropAll, .set "a" "1", .set "a" "2", .set "b" "3"] := by
  intro text
  have hnone := Json.blank_nil
  have hspace : Json.Blank [' '] := by decide
  have hplain {s : String} := @Json.SpellsChars.of_plain s.toList
  have hhex : Json.HexDigits ['0', '0', '6', '1'] 'a'.toNat :=
    @Json.HexDigits.mk _ _ _ _ 0 0 6 1 (.inl rfl) (.inl rfl) (.inl rfl) (.inl rfl)
  have hkey : Json.SpellsChars "a".toList _ := .unit hhex .nil
  have hone : Spells (.value (.text "1")) _ := .text (hplain (by decide))
  have htwo : Spells (.value (.text "2")) _ := .text (hplain (by decide))
  have hobject : SpellsObject (textMembers [("a", "1"), ("a", "2")]) text.toList :=
    ⟨[], _, [], hnone, .object (.member hspace (hplain (by decide)) hnone hnone hone
      (.nextMember hnone (.member hnone hkey hnone hnone htwo (.lastMember hnone)))), hnone,
      by decide +kernel⟩
  exact (history_determines _).2.1 [_, _] (.cons (.deserialize hobject) (.cons .insert .nil))

end Metering.Context
