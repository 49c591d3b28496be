import Metering.Json.Reader
import Metering.Json.Value

/-!
# Contexts

A context holds the named values that were attached to a meter, in the order in which the names came
in. Every name occurs once; giving it another value leaves it in its place.
-/

namespace Metering

/-- Named values in the order in which their names came in. -/
structure Context where
  /-- The names with their values. -/
  entries : List (String × String)
  /-- No name occurs twice. -/
  nodup_keys : (entries.map Prod.fst).Nodup

namespace Context

instance : DecidableEq Context := fun a b =>
  if h : a.entries = b.entries then
    isTrue (by cases a; cases b; simp at h; subst h; rfl)
  else
    isFalse fun e => h (e ▸ rfl)

/-- The context without entries. -/
def empty : Context := ⟨[], List.nodup_nil⟩

instance : Inhabited Context := ⟨empty⟩

/-- The names, in order. -/
def keys (c : Context) : List String := c.entries.map Prod.fst

/-- The number of entries. -/
def size (c : Context) : Nat := c.entries.length

/-- Whether there are no entries. -/
def isEmpty (c : Context) : Bool := c.entries.isEmpty

/-- The value of a name, if it is present. -/
def get? (c : Context) (key : String) : Option String := c.entries.lookup key

/-- Whether a name is present. -/
def contains (c : Context) (key : String) : Bool := c.keys.contains key

/-! ## Changing entries -/

/-- Gives a name its value in a list of entries: in place if it is there, at the end otherwise. -/
def put (key value : String) : List (String × String) → List (String × String)
  | [] => [(key, value)]
  | (k, v) :: es => if k = key then (k, value) :: es else (k, v) :: put key value es

theorem keys_put (key value : String) (es : List (String × String)) :
    (put key value es).map Prod.fst =
      if key ∈ es.map Prod.fst then es.map Prod.fst else es.map Prod.fst ++ [key] := by
  induction es with
  | nil => simp [put]
  | cons e es ih =>
    obtain ⟨k, v⟩ := e
    by_cases h : k = key
    · simp [put, h]
    · have h' : ¬ key = k := fun e => h e.symm
      simp only [put, if_neg h, List.map_cons, ih, List.mem_cons, h', false_or]
      split <;> simp

theorem nodup_put (key value : String) (es : List (String × String))
    (h : (es.map Prod.fst).Nodup) : ((put key value es).map Prod.fst).Nodup := by
  rw [keys_put]
  split
  · exact h
  · next hk =>
    rw [List.nodup_append]
    refine ⟨h, by simp, ?_⟩
    intro a ha b hb
    rw [List.mem_singleton] at hb
    exact fun e => hk (hb ▸ e ▸ ha)

/-- The context with a name set to a value. -/
def insert (c : Context) (key value : String) : Context :=
  ⟨put key value c.entries, nodup_put key value c.entries c.nodup_keys⟩

/-- The context without a name. -/
def erase (c : Context) (key : String) : Context :=
  ⟨c.entries.filter (·.1 != key), by
    exact (c.nodup_keys.sublist (List.filter_sublist.map _))⟩

/-- Removes a name: the value that it had, if it was present, and what is left. -/
def remove (c : Context) (key : String) : Option String × Context :=
  match c.entries.findIdx? (·.1 == key) with
  | none => (none, c)
  | some i =>
    (c.entries[i]?.map Prod.snd,
      ⟨c.entries.eraseIdx i, c.nodup_keys.sublist ((List.eraseIdx_sublist _ i).map _)⟩)

/-- The context that pairs make when they are inserted one by one. -/
def ofList (pairs : List (String × String)) : Context :=
  pairs.foldl (fun c (k, v) => c.insert k v) empty

/-! ## The JSON form -/

/-- A context as a JSON object of texts. -/
def toJson (c : Context) : Json.Value :=
  .object (c.entries.map fun (k, v) => (k, .text v))

/-- The compact JSON text of a context. -/
def encode (c : Context) : String := String.ofList c.toJson.render

/-- Reads the value of a member and inserts it. -/
def readEntry (c : Context) (key : String) : Json.Reader Context := fun s => do
  let (v, r) ← Json.readText (← Json.readColon s)
  .ok (c.insert key v, r)

/-- Reads a context, inserting the members of an object one by one. -/
def read : Json.Reader Context := fun s =>
  match Json.skipSpaces s with
  | [] => .error .endOfValue
  | '\x7b' :: r => Json.readMembers readEntry empty r
  | c :: r => .error (Json.mismatch .texts c r)

/-- The context that a JSON text shows. -/
def decode (text : String) : Except Json.Fault Context := Json.readAll read text.toList

end Context
end Metering
