import Mathlib.Data.List.Induction
import Metering.Context
import Metering.Proofs.Json.Reader

/-!
# Proofs: contexts read back

The entries of a context are written in their order and inserted one by one when they are read. As
no name occurs twice, every insertion adds an entry at the end.

Where a name does occur twice, it stays where it came in first and has the value that came in last.
-/

namespace Metering.Context

open Json

theorem ext_entries {c c' : Context} (h : c.entries = c'.entries) : c = c' := by
  cases c
  cases c'
  cases h
  rfl

theorem isEmpty_iff {c : Context} : c.isEmpty = true ↔ c = .empty := by
  rw [isEmpty, List.isEmpty_iff]
  constructor
  · exact fun h => ext_entries h
  · rintro rfl
    rfl

theorem put_of_not_mem (key value : String) (es : List (String × String))
    (h : key ∉ es.map Prod.fst) : put key value es = es ++ [(key, value)] := by
  induction es with
  | nil => rfl
  | cons e es ih =>
    rw [List.map_cons, List.mem_cons, not_or] at h
    rw [put, if_neg (Ne.symm h.1), ih h.2, List.cons_append]

theorem entries_insert_of_not_mem {c : Context} {key : String} (h : key ∉ c.keys)
    (value : String) : (c.insert key value).entries = c.entries ++ [(key, value)] :=
  put_of_not_mem key value c.entries h

theorem readEntry_text (c : Context) (k v : String) (r : List Char) (hr : Delimited r) :
    readEntry c k (':' :: ((Value.text v).render ++ r)) = .ok (c.insert k v, r) := by
  have hread := reads_text v r hr
  simp only [readEntry, readColon_colon, ok_bind, hread]

/-- The entries of a context are added one by one to those that have been read. -/
theorem membersRead_entries (es : List (String × String)) (c c' : Context)
    (h : c'.entries = c.entries ++ es) :
    MembersRead readEntry (es.map fun (k, v) => (k, Value.text v)) c c' := by
  induction es generalizing c with
  | nil =>
    obtain rfl : c' = c := ext_entries (by rw [h, List.append_nil])
    exact .nil c'
  | cons e es ih =>
    obtain ⟨k, v⟩ := e
    have hkey : k ∉ c.keys := by
      have hnodup := c'.nodup_keys
      rw [h, List.map_append, List.nodup_append] at hnodup
      exact fun hk => hnodup.2.2 k hk k (by simp) rfl
    have hentries := entries_insert_of_not_mem hkey v
    refine .cons (fun r hr => readEntry_text c k v r hr) (ih (c.insert k v) ?_)
    rw [h, hentries, List.append_assoc, List.singleton_append]

theorem reads_toJson (c : Context) : Reads read c.toJson c := by
  intro r _
  have hmembers := readMembers_separated r (membersRead_entries c.entries empty c rfl)
  rw [toJson, Value.render, List.cons_append, List.cons_append, List.append_assoc,
    List.singleton_append, read, skipSpaces_cons _ rfl]
  exact hmembers

/-! ## Contexts by insertion -/

theorem lookup_cons_eq (k key value : String) (es : List (String × String)) :
    ((key, value) :: es).lookup k = if k = key then some value else es.lookup k := by
  by_cases h : k = key
  · simp [h]
  · have hbeq : (k == key) = false := beq_eq_false_iff_ne.mpr h
    rw [List.lookup_cons, hbeq, if_neg h]

theorem lookup_put (key value k : String) (es : List (String × String)) :
    (put key value es).lookup k = if k = key then some value else es.lookup k := by
  induction es with
  | nil => exact lookup_cons_eq k key value []
  | cons e es ih =>
    obtain ⟨k', v'⟩ := e
    by_cases hk' : k' = key
    · rw [put, if_pos hk', lookup_cons_eq, lookup_cons_eq, hk']
      by_cases h : k = key <;> simp [h]
    · rw [put, if_neg hk', lookup_cons_eq, lookup_cons_eq, ih]
      by_cases h : k = k'
      · have hne : k ≠ key := fun heq => hk' (h.symm.trans heq)
        rw [if_pos h, if_neg hne, if_pos h]
      · rw [if_neg h, if_neg h]

theorem get?_insert (c : Context) (key value k : String) :
    (c.insert key value).get? k = if k = key then some value else c.get? k :=
  lookup_put key value k c.entries

theorem keys_insert (c : Context) (key value : String) :
    (c.insert key value).keys = if key ∈ c.keys then c.keys else c.keys ++ [key] :=
  keys_put key value c.entries

theorem ofList_concat (es : List (String × String)) (k v : String) :
    ofList (es ++ [(k, v)]) = (ofList es).insert k v := by
  rw [ofList, List.foldl_append]
  rfl

/-- The names are in the order in which they came in first. -/
theorem keys_ofList (es : List (String × String)) :
    (ofList es).keys = (es.map Prod.fst).eraseDups := by
  induction es using List.reverseRecOn with
  | nil => rfl
  | append_singleton es e ih =>
    obtain ⟨k, v⟩ := e
    rw [ofList_concat, keys_insert, ih, List.map_append, List.eraseDups_append]
    by_cases hk : k ∈ es.map Prod.fst
    · simp [hk, List.removeAll]
    · simp [hk, List.removeAll, List.eraseDups_cons]

/-- Each name has the value that came in last. -/
theorem get?_ofList (es : List (String × String)) (k : String) :
    (ofList es).get? k = es.reverse.lookup k := by
  induction es using List.reverseRecOn with
  | nil => rfl
  | append_singleton es e ih =>
    obtain ⟨k', v⟩ := e
    rw [ofList_concat, get?_insert, ih, List.reverse_append, List.reverse_singleton,
      List.singleton_append, lookup_cons_eq]

/-- Names that are all different are inserted one after the other. -/
theorem entries_ofList {es : List (String × String)} (h : (es.map Prod.fst).Nodup) :
    (ofList es).entries = es := by
  induction es using List.reverseRecOn with
  | nil => rfl
  | append_singleton es e ih =>
    obtain ⟨k, v⟩ := e
    rw [List.map_append, List.nodup_append] at h
    obtain ⟨hes, -, hdisjoint⟩ := h
    have hk : k ∉ (ofList es).keys := by
      rw [keys, ih hes]
      exact fun hk => hdisjoint k hk k (by simp) rfl
    rw [ofList_concat, entries_insert_of_not_mem hk, ih hes]

theorem lookup_eq_none {k : String} {es : List (String × String)} (h : k ∉ es.map Prod.fst) :
    es.lookup k = none := by
  rw [List.lookup_eq_none_iff]
  intro e he
  rw [bne_iff_ne]
  rintro rfl
  exact h (List.mem_map_of_mem he)

theorem entries_ext {es es' : List (String × String)} (hes : (es.map Prod.fst).Nodup)
    (hkeys : es.map Prod.fst = es'.map Prod.fst) (hvalues : ∀ k, es.lookup k = es'.lookup k) :
    es = es' := by
  induction es generalizing es' with
  | nil => exact (List.map_eq_nil_iff.mp hkeys.symm).symm
  | cons e es ih =>
    obtain ⟨k, v⟩ := e
    cases es' with
    | nil => cases hkeys
    | cons e' es' =>
      obtain ⟨k', v'⟩ := e'
      simp only [List.map_cons, List.cons.injEq, List.nodup_cons] at hkeys hes
      obtain ⟨rfl, hkeys⟩ := hkeys
      have hv : v = v' := by simpa using hvalues k
      have hrest : ∀ k', es.lookup k' = es'.lookup k' := by
        intro k'
        by_cases hk : k' = k
        · subst hk
          rw [lookup_eq_none hes.1, lookup_eq_none (hkeys ▸ hes.1)]
        · have hk' := hvalues k'
          rwa [lookup_cons_eq, lookup_cons_eq, if_neg hk, if_neg hk] at hk'
      rw [hv, ih hes.2 hkeys hrest]

/-- A context is known by its names and their values. -/
theorem ext_get? {c c' : Context} (hkeys : c.keys = c'.keys) (hvalues : ∀ k, c.get? k = c'.get? k) :
    c = c' :=
  ext_entries (entries_ext c.nodup_keys hkeys hvalues)

/-! ## Looking up names -/

theorem contains_iff {c : Context} {k : String} : c.contains k = true ↔ k ∈ c.keys := by
  rw [contains, List.contains_iff_mem]

theorem get?_eq_none_iff {c : Context} {k : String} : c.get? k = none ↔ k ∉ c.keys := by
  constructor
  · intro h hk
    obtain ⟨e, he, rfl⟩ := List.mem_map.mp hk
    have hne := List.lookup_eq_none_iff.mp h e he
    simp at hne
  · exact lookup_eq_none

theorem mem_entries_iff {c : Context} {k v : String} : (k, v) ∈ c.entries ↔ c.get? k = some v := by
  obtain ⟨es, hes⟩ := c
  simp only [get?]
  induction es with
  | nil => simp
  | cons e es ih =>
    obtain ⟨k', v'⟩ := e
    obtain ⟨hk', hes⟩ := List.nodup_cons.mp hes
    rw [List.mem_cons, lookup_cons_eq, ih hes]
    by_cases hk : k = k'
    · subst hk
      have hnone := lookup_eq_none hk'
      simp [hnone, eq_comm]
    · simp [hk]

/-! ## Removing names -/

theorem lookup_filter_ne (key k : String) (es : List (String × String)) :
    (es.filter (·.1 != key)).lookup k = if k = key then none else es.lookup k := by
  induction es with
  | nil => simp
  | cons e es ih =>
    obtain ⟨k', v⟩ := e
    by_cases hk' : k' = key
    · subst hk'
      rw [List.filter_cons_of_neg (by simp), ih, lookup_cons_eq]
      split <;> rfl
    · rw [List.filter_cons_of_pos (by simpa using hk'), lookup_cons_eq, lookup_cons_eq, ih]
      by_cases hk : k = k'
      · subst hk
        rw [if_pos rfl, if_neg hk', if_pos rfl]
      · rw [if_neg hk, if_neg hk]

theorem get?_erase (c : Context) (key k : String) :
    (c.erase key).get? k = if k = key then none else c.get? k :=
  lookup_filter_ne key k c.entries

theorem keys_erase (c : Context) (key : String) :
    (c.erase key).keys = c.keys.filter (· != key) := by
  rw [keys, erase, keys, List.filter_map]
  rfl

theorem filter_ne_eq_self {key : String} {es : List (String × String)}
    (h : key ∉ es.map Prod.fst) : es.filter (·.1 != key) = es := by
  rw [List.filter_eq_self]
  intro e he
  rw [bne_iff_ne]
  rintro rfl
  exact h (List.mem_map_of_mem he)

/-- Names are unique, so the first entry with a name is the only one. -/
theorem eraseIdx_findIdx? {es : List (String × String)} (hes : (es.map Prod.fst).Nodup)
    {key : String} {i : Nat} (hi : es.findIdx? (·.1 == key) = some i) :
    es[i]?.map Prod.snd = es.lookup key ∧ es.eraseIdx i = es.filter (·.1 != key) := by
  induction es generalizing i with
  | nil => cases hi
  | cons e es ih =>
    obtain ⟨k, v⟩ := e
    obtain ⟨hk, hes⟩ := List.nodup_cons.mp hes
    rw [List.findIdx?_cons] at hi
    by_cases hkey : k = key
    · subst hkey
      obtain rfl : 0 = i := by simpa using hi
      rw [List.filter_cons_of_neg (by simp), filter_ne_eq_self hk]
      simp
    · have hbeq : (k == key) = false := beq_eq_false_iff_ne.mpr hkey
      rw [hbeq, if_neg Bool.false_ne_true, Option.map_eq_some_iff] at hi
      obtain ⟨j, hj, rfl⟩ := hi
      obtain ⟨hvalue, herase⟩ := ih hes hj
      rw [lookup_cons_eq, if_neg (Ne.symm hkey), List.filter_cons_of_pos (by simpa using hkey)]
      exact ⟨hvalue, congrArg _ herase⟩

/-- Removing a name gives its value and drops it. -/
theorem remove_eq (c : Context) (key : String) : c.remove key = (c.get? key, c.erase key) := by
  unfold remove
  split
  · next h =>
    have hkey : key ∉ c.keys := by
      rw [keys, List.mem_map]
      rintro ⟨e, he, rfl⟩
      simpa using List.findIdx?_eq_none_iff.mp h e he
    have herase : c.erase key = c := ext_entries (filter_ne_eq_self hkey)
    rw [get?_eq_none_iff.mpr hkey, herase]
  · next i h =>
    obtain ⟨hvalue, herase⟩ := eraseIdx_findIdx? c.nodup_keys h
    simp only [erase, get?, hvalue, herase]

end Metering.Context
