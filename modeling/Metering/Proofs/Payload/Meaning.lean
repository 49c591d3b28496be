import Metering.Proofs.Json.Kind
import Metering.Proofs.Json.Skipping
import Metering.Proofs.Payload.Fields

/-!
# Proofs: the meaning of a payload object

What is read from an object text is determined by its members: each field holds the value of its
key, whatever the order of the members and whatever unknown members stand between them. The reading
goes on one member after the other, so what it gathers is found by induction on the members, and the
fields are then looked at one by one.
-/

namespace Metering

open Json (Value Kind Spells SpellsObject Recognizes RecognizesMember)

/-! ## Contexts -/

namespace Context

/-- The entry that a member makes. -/
def entry? (c : Context) (m : String × Value) : Option Context :=
  m.2.text?.map fun v => c.insert m.1 v

/-- The context that a value is. -/
def meaning : Value → Option Context
  | .object ms => ms.foldlM entry? empty
  | _ => none

theorem recognizesMember_readEntry : RecognizesMember readEntry entry? := by
  intro g k v t b b' r ht hb hb' hr
  simp only [readEntry, Json.readColon_blank hb, Json.ok_bind, Json.toOption_bind,
    Json.recognizes_text ht hb' hr, entry?]
  cases v.text? <;> rfl

theorem recognizes_read : Recognizes read meaning := by
  intro v t b r ht hb _
  obtain ⟨c, t', rfl, hopens, hspace⟩ := ht.eq_cons
  by_cases hc : c = '\x7b'
  · subst hc
    obtain ⟨ms, rfl⟩ := Value.opens_brace hopens
    have hmembers := Json.readMembers_object recognizesMember_readEntry ht empty r
    simp only [List.cons_append, read, Json.skipSpaces_blank_cons hb hspace]
    exact hmembers
  · have hv : meaning v = none := by
      cases v with
      | object ms => exact absurd hopens hc
      | _ => rfl
    simp [read, Json.skipSpaces_blank_cons hb hspace, hv, Except.toOption]

/-- The members that texts make. -/
def textMembers (es : List (String × String)) : List (String × Value) :=
  es.map fun (k, s) => (k, .text s)

/-- Only texts make entries, and they are inserted in their order. -/
theorem foldlM_entry?_eq_some_iff (ms : List (String × Value)) (c c' : Context) :
    ms.foldlM entry? c = some c' ↔
      ∃ es, ms = textMembers es ∧ c' = es.foldl (fun c (k, s) => c.insert k s) c := by
  induction ms generalizing c with
  | nil =>
    constructor
    · intro h
      exact ⟨[], rfl, (Option.some.inj h).symm⟩
    · rintro ⟨es, hes, rfl⟩
      obtain rfl := List.map_eq_nil_iff.mp hes.symm
      rfl
  | cons m ms ih =>
    obtain ⟨k, v⟩ := m
    rw [List.foldlM_cons]
    constructor
    · intro h
      obtain ⟨c₁, hc₁, h⟩ := Option.bind_eq_some_iff.mp h
      obtain ⟨s, hs, rfl⟩ := Option.map_eq_some_iff.mp hc₁
      obtain rfl := Kind.text.meaning_eq_some_iff.mp hs
      obtain ⟨es, rfl, rfl⟩ := (ih _).mp h
      exact ⟨(k, s) :: es, rfl, rfl⟩
    · rintro ⟨es, hes, rfl⟩
      cases es with
      | nil => cases hes
      | cons e es =>
        obtain ⟨hm, rfl⟩ := List.cons.inj hes
        obtain ⟨rfl, rfl⟩ := Prod.mk.inj hm
        exact (ih _).mpr ⟨es, rfl, rfl⟩

/-- An object of texts. A key keeps its first place and has its last value. -/
def kind : Kind Context where
  Fits v := ∃ es, v = .object (textMembers es)
  Holds v c := ∃ es, v = .object (textMembers es) ∧
    c.keys = (es.map Prod.fst).eraseDups ∧ ∀ k, c.get? k = es.reverse.lookup k
  meaning := meaning
  meaning_eq_some_iff := by
    intro v c
    constructor
    · intro h
      cases v with
      | object ms =>
        obtain ⟨es, rfl, rfl⟩ := (foldlM_entry?_eq_some_iff ms empty c).mp h
        exact ⟨es, rfl, keys_ofList es, get?_ofList es⟩
      | _ => cases h
    · rintro ⟨es, rfl, hkeys, hvalues⟩
      obtain rfl : c = ofList es := by
        refine ext_get? ?_ fun k => ?_
        · rw [hkeys, keys_ofList]
        · rw [hvalues, get?_ofList]
      exact (foldlM_entry?_eq_some_iff _ empty _).mpr ⟨es, rfl, rfl⟩
  fits_iff := by
    intro v
    constructor
    · rintro ⟨es, rfl⟩
      exact ⟨ofList es, es, rfl, keys_ofList es, get?_ofList es⟩
    · rintro ⟨c, es, rfl, -⟩
      exact ⟨es, rfl⟩

end Context

/-! ## Fields -/

/-- The kind of value that a field has. -/
def Field.kind : (f : Field) → Kind (Payload.Contents f)
  | .category => Kind.text
  | .position | .createTime | .startTime | .stopTime | .lastTime | .timeLimit | .iteration
  | .expected => Kind.word
  | .context => Context.kind
  | .systemMemory => Kind.words 3
  | .processMemory | .cpuTime => Kind.words 2
  | .load => Kind.realOrZero
  | .session | .operation | .parent | .description | .okPath | .rejectPath | .failPath
  | .failMessage => Kind.optionalText

namespace Payload

/-- The payload with other contents of a field. -/
def set (p : Payload) : (f : Field) → Contents f → Payload
  | .session, x => { p with session := x }
  | .category, x => { p with category := x }
  | .operation, x => { p with operation := x }
  | .parent, x => { p with parent := x }
  | .position, x => { p with position := x }
  | .description, x => { p with description := x }
  | .createTime, x => { p with createTime := x }
  | .startTime, x => { p with startTime := x }
  | .stopTime, x => { p with stopTime := x }
  | .lastTime, x => { p with lastTime := x }
  | .timeLimit, x => { p with timeLimit := x }
  | .iteration, x => { p with iteration := x }
  | .expected, x => { p with expected := x }
  | .okPath, x => { p with okPath := x }
  | .rejectPath, x => { p with rejectPath := x }
  | .failPath, x => { p with failPath := x }
  | .failMessage, x => { p with failMessage := x }
  | .context, x => { p with context := x }
  | .systemMemory, x => { p with systemMemory := x }
  | .processMemory, x => { p with processMemory := x }
  | .cpuTime, x => { p with cpuTime := x }
  | .load, x => { p with load := x }

theorem get_set_self (p : Payload) (f : Field) (x : Contents f) : (p.set f x).get f = x := by
  cases f <;> rfl

theorem get_set_of_ne (p : Payload) (f g : Field) (x : Contents f) (h : g ≠ f) :
    (p.set f x).get g = p.get g := by
  cases f <;> cases g <;> first | rfl | exact absurd rfl h

theorem recognizes_of_readField {p : Payload} {f : Field} {read : Json.Reader (Contents f)}
    (h : Recognizes read f.kind.meaning)
    (hread : ∀ s, readField p f s = do let (x, r) ← read s; .ok (p.set f x, r)) :
    Recognizes (readField p f) fun v => (f.kind.meaning v).map (p.set f) := by
  intro v t b r ht hb hr
  rw [hread]
  exact h.map (p.set f) ht hb hr

/-- Each field is read as what the value of its key means. -/
theorem recognizes_readField (p : Payload) (f : Field) :
    Recognizes (readField p f) fun v => (f.kind.meaning v).map (p.set f) := by
  cases f
  case category => exact recognizes_of_readField Json.recognizes_text fun s => rfl
  case context => exact recognizes_of_readField Context.recognizes_read fun s => rfl
  case load =>
    have hload := (Json.recognizes_optional Json.recognizes_real).map (·.getD Binary64.zero)
    refine recognizes_of_readField hload fun s => ?_
    simp only [readField]
    cases Json.readOptional Json.readReal s <;> rfl
  case systemMemory =>
    exact recognizes_of_readField (Json.recognizes_words 2) fun s => rfl
  case processMemory | cpuTime =>
    exact recognizes_of_readField (Json.recognizes_words 1) fun s => rfl
  case position | createTime | startTime | stopTime | lastTime | timeLimit | iteration | expected =>
    exact recognizes_of_readField Json.recognizes_word fun s => rfl
  all_goals
    exact recognizes_of_readField (Json.recognizes_optional Json.recognizes_text) fun s => rfl

/-! ## Members -/

theorem key_inj {f g : Field} (h : f.key = g.key) : f = g := by
  have hf := ofKey?_key f
  rw [h, ofKey?_key] at hf
  exact (Option.some.inj hf).symm

/-- What a member adds to what has been gathered. -/
def gather (g : Gathered) (m : String × Value) : Option Gathered :=
  match Field.ofKey? m.1 with
  | none => some g
  | some f =>
    if f ∈ g.seen then none
    else (f.kind.meaning m.2).map fun x => ⟨g.payload.set f x, f :: g.seen⟩

theorem recognizesMember_readMember : RecognizesMember readMember gather := by
  intro g k v t b b' r ht hb hb' hr
  cases hf : Field.ofKey? k with
  | none =>
    simp only [readMember, gather, hf, Json.readColon_blank hb, Json.ok_bind,
      ht.skipValue hb' hr]
    rfl
  | some f =>
    by_cases hseen : f ∈ g.seen
    · simp only [readMember, gather, hf, if_pos hseen]
      rfl
    · simp only [readMember, gather, hf, if_neg hseen, Json.readColon_blank hb, Json.ok_bind,
        Json.toOption_bind, recognizes_readField g.payload f ht hb' hr]
      cases f.kind.meaning v <;> rfl

/-- A payload object is read member by member. -/
theorem parse_object {ms : List (String × Value)} {text : List Char} (h : SpellsObject ms text) :
    (parse text).toOption = (ms.foldlM gather {}).map Gathered.payload := by
  obtain ⟨b, t, b', hb, ht, hb', rfl⟩ := h
  obtain ⟨c, t', rfl, rfl, hspace⟩ := ht.eq_cons
  have hmembers := Json.readMembers_object recognizesMember_readMember ht {} b'
  simp only [parse, Json.readAll, List.cons_append, read, Json.skipSpaces_blank_cons hb hspace,
    Json.toOption_bind, hmembers]
  cases ms.foldlM gather {} with
  | none => rfl
  | some g =>
    have hend : Json.skipSpaces b' = [] := Json.skipSpaces_of_blank hb'
    simp [Except.toOption, hend]

/-! ## Fields, one by one -/

theorem eq_key_of_ofKey? {k : String} {f : Field} (h : Field.ofKey? k = some f) : k = f.key := by
  have hkey := List.find?_some h
  exact (beq_iff_eq.mp hkey).symm

end Payload

namespace Field

/-- The values that an object has for a field. -/
def valuesIn (f : Field) (ms : List (String × Value)) : List Value :=
  (ms.filter (·.1 == f.key)).map Prod.snd

theorem valuesIn_cons (f : Field) (k : String) (v : Value) (ms : List (String × Value)) :
    f.valuesIn ((k, v) :: ms) = if k = f.key then v :: f.valuesIn ms else f.valuesIn ms := by
  by_cases h : k = f.key
  · simp [valuesIn, h]
  · simp [valuesIn, h]

end Field

namespace Payload

/-- Whether a payload holds what an object tells about it: a field that is not given has what it has
in `q`, and a field that is given is given once and has not been given before. -/
def Gathers (ms : List (String × Value)) (q : Payload) (seen : List Field) (p : Payload) : Prop :=
  ∀ f, f.valuesIn ms = [] ∧ p.get f = q.get f ∨
    f ∉ seen ∧ ∃ v, f.valuesIn ms = [v] ∧ f.kind.Holds v (p.get f)

theorem gathers_nil_iff {q p : Payload} {seen : List Field} : Gathers [] q seen p ↔ q = p := by
  constructor
  · intro h
    refine ext_get fun f => ?_
    rcases h f with ⟨-, hget⟩ | ⟨-, v, hv, -⟩
    · exact hget.symm
    · cases hv
  · rintro rfl f
    exact .inl ⟨rfl, rfl⟩

theorem gathers_cons_unknown_iff {k : String} {v : Value} {ms : List (String × Value)}
    {q p : Payload} {seen : List Field} (hk : Field.ofKey? k = none) :
    Gathers ((k, v) :: ms) q seen p ↔ Gathers ms q seen p := by
  refine forall_congr' fun f => ?_
  have hne : k ≠ f.key := by
    rintro rfl
    rw [ofKey?_key] at hk
    cases hk
  rw [f.valuesIn_cons, if_neg hne]

/-- A member of a field gives the field its contents, and the members after it may not. -/
theorem gathers_cons_known_iff {f : Field} {v : Value} {ms : List (String × Value)}
    {q p : Payload} {seen : List Field} :
    Gathers ((f.key, v) :: ms) q seen p ↔
      f ∉ seen ∧ ∃ x, f.kind.Holds v x ∧ Gathers ms (q.set f x) (f :: seen) p := by
  have hother {g : Field} (hg : g ≠ f) : f.key ≠ g.key := fun hkey => hg (key_inj hkey).symm
  constructor
  · intro h
    have hf := h f
    rw [f.valuesIn_cons, if_pos rfl] at hf
    rcases hf with ⟨hnil, -⟩ | ⟨hseen, v', hv', hholds⟩
    · cases hnil
    obtain ⟨rfl, hrest⟩ := List.cons.inj hv'
    refine ⟨hseen, p.get f, hholds, fun g => ?_⟩
    by_cases hg : g = f
    · subst hg
      exact .inl ⟨hrest, (get_set_self q g _).symm⟩
    · have hgiven := h g
      rw [g.valuesIn_cons, if_neg (hother hg)] at hgiven
      rw [get_set_of_ne q f g _ hg, List.mem_cons, not_or]
      rcases hgiven with hgiven | ⟨hnot, hgiven⟩
      · exact .inl hgiven
      · exact .inr ⟨⟨hg, hnot⟩, hgiven⟩
  · rintro ⟨hseen, x, hholds, h⟩ g
    by_cases hg : g = f
    · subst hg
      rw [g.valuesIn_cons, if_pos rfl]
      rcases h g with ⟨hnil, hget⟩ | ⟨hnot, -⟩
      · rw [get_set_self] at hget
        exact .inr ⟨hseen, v, by rw [hnil], by rw [hget]; exact hholds⟩
      · exact absurd List.mem_cons_self hnot
    · rw [g.valuesIn_cons, if_neg (hother hg)]
      rcases h g with ⟨hnil, hget⟩ | ⟨hnot, hgiven⟩
      · rw [get_set_of_ne q f g _ hg] at hget
        exact .inl ⟨hnil, hget⟩
      · exact .inr ⟨fun hmem => hnot (List.mem_cons_of_mem f hmem), hgiven⟩

/-- What is gathered from the members is what they tell. -/
theorem foldlM_gather_eq_some_iff (ms : List (String × Value)) (g : Gathered) (p : Payload) :
    (ms.foldlM gather g).map Gathered.payload = some p ↔ Gathers ms g.payload g.seen p := by
  induction ms generalizing g with
  | nil =>
    rw [gathers_nil_iff]
    exact Option.some_inj
  | cons m ms ih =>
    obtain ⟨k, v⟩ := m
    rw [List.foldlM_cons]
    cases hf : Field.ofKey? k with
    | none =>
      rw [gathers_cons_unknown_iff hf, ← ih]
      simp only [gather, hf]
      rfl
    | some f =>
      obtain rfl := eq_key_of_ofKey? hf
      rw [gathers_cons_known_iff]
      by_cases hseen : f ∈ g.seen
      · refine iff_of_false ?_ (fun h => h.1 hseen)
        simp only [gather, hf, if_pos hseen]
        exact fun h => by cases h
      · simp only [gather, hf, if_neg hseen]
        cases hv : f.kind.meaning v with
        | none =>
          refine iff_of_false (fun h => by cases h) ?_
          rintro ⟨-, x, hx, -⟩
          rw [f.kind.meaning_eq_some_iff.mpr hx] at hv
          cases hv
        | some x =>
          have hrest := ih ⟨g.payload.set f x, f :: g.seen⟩
          constructor
          · intro h
            exact ⟨hseen, x, f.kind.meaning_eq_some_iff.mp hv, hrest.mp h⟩
          · rintro ⟨-, x', hx', h⟩
            obtain rfl : x = x' :=
              Option.some.inj (hv.symm.trans (f.kind.meaning_eq_some_iff.mpr hx'))
            exact hrest.mpr h

theorem parse_object_eq_ok_iff {ms : List (String × Value)} {text : List Char}
    (h : SpellsObject ms text) (p : Payload) : parse text = .ok p ↔ Gathers ms {} [] p := by
  rw [← Json.toOption_eq_some, parse_object h]
  exact foldlM_gather_eq_some_iff ms {} p

/-! ## What an object tells -/

theorem mem_valuesIn_iff {f : Field} {v : Value} {ms : List (String × Value)} :
    v ∈ f.valuesIn ms ↔ (f.key, v) ∈ ms := by
  simp [Field.valuesIn]

theorem length_valuesIn (f : Field) (ms : List (String × Value)) :
    (f.valuesIn ms).length = (ms.map Prod.fst).count f.key := by
  rw [Field.valuesIn, List.length_map, List.count, List.countP_map, List.countP_eq_length_filter]
  rfl

theorem valuesIn_eq_nil_iff {f : Field} {ms : List (String × Value)} :
    f.valuesIn ms = [] ↔ f.key ∉ ms.map Prod.fst := by
  rw [← List.length_eq_zero_iff, length_valuesIn, List.count_eq_zero]

/-- What an object tells about a payload: no key of a field is given twice, each field holds what is
given for it, and a field that is not given has its default. -/
theorem gathers_iff {ms : List (String × Value)} {p : Payload} :
    Gathers ms {} [] p ↔
      (∀ f : Field, (ms.map Prod.fst).count f.key ≤ 1) ∧
        (∀ (f : Field) v, (f.key, v) ∈ ms → f.kind.Holds v (p.get f)) ∧
        ∀ f : Field, f.key ∉ ms.map Prod.fst → p.get f = ({} : Payload).get f := by
  constructor
  · intro h
    refine ⟨fun f => ?_, fun f v hv => ?_, fun f hf => ?_⟩
    · rw [← length_valuesIn]
      rcases h f with ⟨hnil, -⟩ | ⟨-, v, hv, -⟩
      · simp [hnil]
      · simp [hv]
    · rw [← mem_valuesIn_iff] at hv
      rcases h f with ⟨hnil, -⟩ | ⟨-, v', hv', hholds⟩
      · rw [hnil] at hv
        cases hv
      · rw [hv', List.mem_singleton] at hv
        rwa [hv]
    · rw [← valuesIn_eq_nil_iff] at hf
      rcases h f with ⟨-, hget⟩ | ⟨-, v', hv', -⟩
      · exact hget
      · rw [hf] at hv'
        cases hv'
  · rintro ⟨hcount, hholds, hdefault⟩ f
    have hlength := hcount f
    rw [← length_valuesIn] at hlength
    cases hvalues : f.valuesIn ms with
    | nil => exact .inl ⟨rfl, hdefault f (valuesIn_eq_nil_iff.mp hvalues)⟩
    | cons v vs =>
      rw [hvalues] at hlength
      obtain rfl : vs = [] := by simpa using hlength
      have hv : v ∈ f.valuesIn ms := by rw [hvalues]; exact List.mem_singleton_self v
      exact .inr ⟨List.not_mem_nil, v, rfl, hholds f v (mem_valuesIn_iff.mp hv)⟩

/-- The payload with the given contents. -/
def ofContents (c : (f : Field) → Contents f) : Payload where
  session := c .session
  category := c .category
  operation := c .operation
  parent := c .parent
  position := c .position
  description := c .description
  createTime := c .createTime
  startTime := c .startTime
  stopTime := c .stopTime
  lastTime := c .lastTime
  timeLimit := c .timeLimit
  iteration := c .iteration
  expected := c .expected
  okPath := c .okPath
  rejectPath := c .rejectPath
  failPath := c .failPath
  failMessage := c .failMessage
  context := c .context
  systemMemory := c .systemMemory
  processMemory := c .processMemory
  cpuTime := c .cpuTime
  load := c .load

theorem get_ofContents (c : (f : Field) → Contents f) (f : Field) : (ofContents c).get f = c f := by
  cases f <;> rfl

/-- An object tells about some payload if no key of a field is given twice and each value fits. -/
theorem exists_gathers_iff {ms : List (String × Value)} :
    (∃ p, Gathers ms {} [] p) ↔
      ∀ f : Field, (ms.map Prod.fst).count f.key ≤ 1 ∧ ∀ v, (f.key, v) ∈ ms → f.kind.Fits v := by
  constructor
  · rintro ⟨p, h⟩ f
    obtain ⟨hcount, hholds, -⟩ := gathers_iff.mp h
    exact ⟨hcount f, fun v hv => f.kind.fits_iff.mpr ⟨p.get f, hholds f v hv⟩⟩
  · intro h
    have hcontents (f : Field) : ∃ x : Contents f, f.valuesIn ms = [] ∧ x = ({} : Payload).get f ∨
        f ∉ [] ∧ ∃ v, f.valuesIn ms = [v] ∧ f.kind.Holds v x := by
      obtain ⟨hcount, hfits⟩ := h f
      rw [← length_valuesIn] at hcount
      cases hvalues : f.valuesIn ms with
      | nil => exact ⟨_, .inl ⟨rfl, rfl⟩⟩
      | cons v vs =>
        rw [hvalues] at hcount
        obtain rfl : vs = [] := by simpa using hcount
        have hv : v ∈ f.valuesIn ms := by rw [hvalues]; exact List.mem_singleton_self v
        obtain ⟨x, hx⟩ := f.kind.fits_iff.mp (hfits v (mem_valuesIn_iff.mp hv))
        exact ⟨x, .inr ⟨List.not_mem_nil, v, rfl, hx⟩⟩
    choose c hc using hcontents
    refine ⟨ofContents c, fun f => ?_⟩
    rw [get_ofContents]
    exact hc f

/-! ## Known members -/

/-- The members of an object whose keys are those of fields. -/
def knownMembers (ms : List (String × Value)) : List (String × Value) :=
  ms.filter fun m => m.1 ∈ Field.all.map Field.key

theorem valuesIn_knownMembers (f : Field) (ms : List (String × Value)) :
    f.valuesIn (knownMembers ms) = f.valuesIn ms := by
  have hkey : f.key ∈ Field.all.map Field.key := List.mem_map_of_mem (mem_all f)
  rw [Field.valuesIn, Field.valuesIn, knownMembers, List.filter_filter]
  congr 1
  refine List.filter_congr fun m _ => ?_
  by_cases hm : m.1 = f.key
  · simp only [hm, hkey, decide_true, Bool.and_true]
  · simp only [beq_eq_false_iff_ne.mpr hm, Bool.false_and]

/-- The order of the known members does not matter, and the others do not matter at all. -/
theorem Gathers.of_perm {ms ms' : List (String × Value)} {q p : Payload} {seen : List Field}
    (hperm : (knownMembers ms).Perm (knownMembers ms')) (h : Gathers ms q seen p) :
    Gathers ms' q seen p := by
  intro f
  have hvalues : (f.valuesIn ms).Perm (f.valuesIn ms') := by
    rw [← valuesIn_knownMembers, ← valuesIn_knownMembers f ms']
    exact (hperm.filter _).map _
  rcases h f with ⟨hnil, hget⟩ | ⟨hnot, v, hv, hholds⟩
  · rw [hnil, List.nil_perm] at hvalues
    exact .inl ⟨hvalues, hget⟩
  · rw [hv, List.singleton_perm] at hvalues
    exact .inr ⟨hnot, v, hvalues.symm, hholds⟩

/-! ## The outcome -/

/-- Whether an object gives a text, and not `null`, for a field. -/
def HasText (ms : List (String × Value)) (f : Field) : Prop := ∃ s, (f.key, Value.text s) ∈ ms

/-- Whether an outcome is the one that the members of an object tell, where `p` holds the contents
of the fields. -/
structure TellsOutcome (ms : List (String × Value)) (p : Payload) (outcome : Outcome) : Prop where
  /-- A path of a failure goes before everything else. -/
  fail : ∀ path, (Field.failPath.key, .text path) ∈ ms → outcome = .fail path p.failMessage
  /-- A path of a rejection comes next. -/
  reject : ¬ HasText ms .failPath →
    ∀ path, (Field.rejectPath.key, .text path) ∈ ms → outcome = .reject path
  /-- A path of a success comes next. -/
  ok : ¬ HasText ms .failPath → ¬ HasText ms .rejectPath →
    ∀ path, (Field.okPath.key, .text path) ∈ ms → outcome = .ok (some path)
  /-- Without a path the stop time tells of a success. -/
  stopped : ¬ HasText ms .failPath → ¬ HasText ms .rejectPath → ¬ HasText ms .okPath →
    p.stopTime ≠ 0 → outcome = .ok none
  /-- Without any of these there is no outcome. -/
  unset : ¬ HasText ms .failPath → ¬ HasText ms .rejectPath → ¬ HasText ms .okPath →
    p.stopTime = 0 → outcome = .unset

theorem eq_some_iff_of_optionalText {seen : Prop} {values : List Value} {o : Option String}
    (h : values = [] ∧ o = none ∨ seen ∧ ∃ v, values = [v] ∧ Kind.optionalText.Holds v o)
    (s : String) : o = some s ↔ .text s ∈ values := by
  rcases h with ⟨rfl, rfl⟩ | ⟨-, v, rfl, ⟨rfl, rfl⟩ | ⟨s', rfl, rfl⟩⟩
  · simp
  · simp
  · simp [eq_comm]

theorem Gathers.tellsOutcome {ms : List (String × Value)} {p : Payload} (h : Gathers ms {} [] p) :
    TellsOutcome ms p p.outcome := by
  have hfail (s : String) : p.failPath = some s ↔ (Field.failPath.key, .text s) ∈ ms :=
    (eq_some_iff_of_optionalText (h .failPath) s).trans mem_valuesIn_iff
  have hreject (s : String) : p.rejectPath = some s ↔ (Field.rejectPath.key, .text s) ∈ ms :=
    (eq_some_iff_of_optionalText (h .rejectPath) s).trans mem_valuesIn_iff
  have hok (s : String) : p.okPath = some s ↔ (Field.okPath.key, .text s) ∈ ms :=
    (eq_some_iff_of_optionalText (h .okPath) s).trans mem_valuesIn_iff
  have heq_none {o : Option String} {f : Field}
      (ho : ∀ s, o = some s ↔ (f.key, .text s) ∈ ms) (hf : ¬ HasText ms f) : o = none := by
    cases o with
    | none => rfl
    | some s => exact absurd ⟨s, (ho s).mp rfl⟩ hf
  constructor
  case fail =>
    intro path hpath
    simp only [outcome, (hfail path).mpr hpath]
  case reject =>
    intro hnofail path hpath
    simp only [outcome, heq_none hfail hnofail, (hreject path).mpr hpath]
  case ok =>
    intro hnofail hnoreject path hpath
    simp [outcome, heq_none hfail hnofail, heq_none hreject hnoreject, (hok path).mpr hpath]
  case stopped =>
    intro hnofail hnoreject hnook hstop
    simp [outcome, heq_none hfail hnofail, heq_none hreject hnoreject, heq_none hok hnook, hstop]
  case unset =>
    intro hnofail hnoreject hnook hstop
    simp [outcome, heq_none hfail hnofail, heq_none hreject hnoreject, heq_none hok hnook, hstop]

/-! ## The other fields -/

/-- Whether a snapshot has the contents of a payload, apart from the outcome. -/
structure Fills (p : Payload) (d : Snapshot) : Prop where
  /-- The session. -/
  session : d.session = p.session
  /-- The category. -/
  category : d.category = p.category
  /-- The operation. -/
  operation : d.operation = p.operation
  /-- The parent. -/
  parent : d.parent = p.parent
  /-- The position. -/
  position : d.position = p.position
  /-- The description. -/
  description : d.description = p.description
  /-- The time of creation. -/
  createTime : d.createTime = p.createTime
  /-- The time of the last start. -/
  startTime : d.startTime = p.startTime
  /-- The time of the last resolution. -/
  stopTime : d.stopTime = p.stopTime
  /-- The time of the last change. -/
  lastTime : d.lastTime = p.lastTime
  /-- The time limit. -/
  timeLimit : d.timeLimit = p.timeLimit
  /-- The completed iterations. -/
  iteration : d.iteration = p.iteration
  /-- The expected iterations. -/
  expected : d.expected = p.expected
  /-- The context. -/
  context : d.context = p.context
  /-- The memory of the system. -/
  systemMemory : d.metrics.systemMemory = p.systemMemory
  /-- The memory of the process. -/
  processMemory : d.metrics.processMemory = p.processMemory
  /-- The processor time. -/
  cpuTime : d.metrics.cpuTime = p.cpuTime
  /-- The load of the system. -/
  load : d.metrics.load = p.load

theorem fills_toSnapshot (p : Payload) : p.Fills p.toSnapshot := by
  constructor <;> rfl

end Payload

namespace Snapshot

open Payload

theorem decode_object_eq_ok_iff {ms : List (String × Value)} {text : String}
    (h : SpellsObject ms text.toList) (d : Snapshot) :
    decode text = .ok d ↔ ∃ p, Gathers ms {} [] p ∧ d = p.toSnapshot := by
  simp only [decode, decodeChars, ← parse_object_eq_ok_iff h]
  cases parse text.toList with
  | error fault => simp
  | ok p => simp [eq_comm]

/-- The meaning of a payload object. It is read exactly if no key of a field is given twice and each
field has a value of its kind. Then each field holds the value of its key, or its default where the
key is missing; the outcome follows from the paths and the stop time. The order of the members and
the members that belong to no field do not matter. -/
theorem object_text_meaning {ms : List (String × Value)} {text : String}
    (h : SpellsObject ms text.toList) :
    ((∃ d, decode text = .ok d) ↔
        ∀ f : Field, (ms.map Prod.fst).count f.key ≤ 1 ∧ ∀ v, (f.key, v) ∈ ms → f.kind.Fits v) ∧
      (∀ d, decode text = .ok d → ∃ p : Payload, p.Fills d ∧
        (∀ (f : Field) v, (f.key, v) ∈ ms → f.kind.Holds v (p.get f)) ∧
        (∀ f : Field, f.key ∉ ms.map Prod.fst → p.get f = ({} : Payload).get f) ∧
        TellsOutcome ms p d.outcome) ∧
      ∀ ms' text', SpellsObject ms' text'.toList →
        (knownMembers ms).Perm (knownMembers ms') →
        ∀ d, decode text = .ok d ↔ decode text' = .ok d := by
  refine ⟨?_, ?_, ?_⟩
  · rw [← exists_gathers_iff]
    constructor
    · rintro ⟨d, hd⟩
      obtain ⟨p, hp, -⟩ := (decode_object_eq_ok_iff h d).mp hd
      exact ⟨p, hp⟩
    · rintro ⟨p, hp⟩
      exact ⟨p.toSnapshot, (decode_object_eq_ok_iff h _).mpr ⟨p, hp, rfl⟩⟩
  · intro d hd
    obtain ⟨p, hp, rfl⟩ := (decode_object_eq_ok_iff h d).mp hd
    obtain ⟨-, hholds, hdefault⟩ := gathers_iff.mp hp
    exact ⟨p, p.fills_toSnapshot, hholds, hdefault, hp.tellsOutcome⟩
  · intro ms' text' h' hperm d
    rw [decode_object_eq_ok_iff h, decode_object_eq_ok_iff h']
    constructor
    · rintro ⟨p, hp, rfl⟩
      exact ⟨p, hp.of_perm hperm, rfl⟩
    · rintro ⟨p, hp, rfl⟩
      exact ⟨p, hp.of_perm hperm.symm, rfl⟩

/-- A text with an unknown member, an escaped key and insignificant characters. The stop time alone
tells of a success. -/
theorem object_text_meaning_foreign :
    let text := " \x7b\"t2\" : 7,\n \"zz\":[\x7b\"t2\":null\x7d,-0.5E+01],\"\\u0063\":\"a\" \x7d"
    let ms := [("t2", Value.number (.ofNat 7)),
      ("zz", .list [.object [("t2", .null)], .number ⟨true, 0, [5], some 1⟩]), ("c", .text "a")]
    SpellsObject ms text.toList ∧
      ∃ d, decode text = .ok d ∧ d.category = "a" ∧ d.stopTime = 7 ∧ d.position = 0 ∧
        d.outcome = .ok none := by
  intro text ms
  have hblank : Json.Blank [' '] := by decide
  have hline : Json.Blank ['\n', ' '] := by decide
  have hnone : Json.Blank [] := Json.blank_nil
  have hseven : Spells (.value (.number (.ofNat 7))) _ := .number (.mk .none)
  have hhalf : Spells (.value (.number ⟨true, 0, [5], some 1⟩)) _ :=
    .number (.mk (@Json.SpellsExponent.plus 'E' [0, 1] (.inr rfl) (by decide)))
  have hstop : Json.SpellsChars "t2".toList _ := .of_plain (by decide)
  have hunknown : Json.SpellsChars "zz".toList _ := .of_plain (by decide)
  have hletter : Json.SpellsChars "a".toList _ := .of_plain (by decide)
  have hhex : Json.HexDigits ['0', '0', '6', '3'] 'c'.toNat :=
    @Json.HexDigits.mk _ _ _ _ 0 0 6 3 (.inl rfl) (.inl rfl) (.inl rfl) (.inl rfl)
  have hcategory : Json.SpellsChars "c".toList _ := .unit hhex .nil
  have hinner : Spells (.value (.object [("t2", .null)])) _ :=
    .object (.member hnone hstop hnone hnone .nullWord (.lastMember hnone))
  have hitems : Spells (.items [.object [("t2", .null)], .number ⟨true, 0, [5], some 1⟩]) _ :=
    .item hnone hinner (.nextItem hnone (.item hnone hhalf (.lastItem hnone)))
  have hmembers : Spells (.members ms) _ :=
    .member hnone hstop hblank hblank hseven (.nextMember hnone
      (.member hline hunknown hnone hnone (.list hitems) (.nextMember hnone
        (.member hnone hcategory hnone hnone (.text hletter) (.lastMember hblank)))))
  have hobject : SpellsObject ms text.toList :=
    ⟨[' '], _, [], hblank, .object hmembers, hnone, by decide +kernel⟩
  refine ⟨hobject, ?_⟩
  obtain ⟨hread, htells, -⟩ := object_text_meaning hobject
  have hfits : ∀ f : Field, (ms.map Prod.fst).count f.key ≤ 1 ∧
      ∀ v, (f.key, v) ∈ ms → f.kind.Fits v := by
    intro f
    refine ⟨by cases f <;> decide, fun v hv => ?_⟩
    simp only [ms, List.mem_cons, Prod.mk.injEq, List.not_mem_nil, or_false] at hv
    rcases hv with ⟨hkey, rfl⟩ | ⟨hkey, rfl⟩ | ⟨hkey, rfl⟩
    · obtain rfl : f = .stopTime := key_inj hkey
      exact ⟨7, by decide, rfl⟩
    · exact absurd hkey (by cases f <;> decide)
    · obtain rfl : f = .category := key_inj hkey
      exact ⟨"a", rfl⟩
  obtain ⟨d, hd⟩ := hread.mpr hfits
  obtain ⟨p, hfills, hholds, hdefault, houtcome⟩ := htells d hd
  have htext : Value.text "a" = .text p.category :=
    hholds .category (.text "a") (.tail _ (.tail _ (.head _)))
  have hword : Value.number (.ofNat 7) = .number (.ofNat p.stopTime.toNat) :=
    hholds .stopTime (.number (.ofNat 7)) (.head _)
  have hstopTime : p.stopTime = 7 := UInt64.toNat_inj.mp (congrArg Json.Numeral.whole
    (Value.number.inj hword)).symm
  have hposition : p.position = 0 := hdefault .position (by decide)
  have hnotext : ∀ f : Field, f.key ≠ "c" → ¬ HasText ms f := by
    rintro f hne ⟨s, hs⟩
    simp [ms, hne] at hs
  have hok : d.outcome = .ok none := houtcome.stopped (hnotext _ (by decide))
    (hnotext _ (by decide)) (hnotext _ (by decide)) (by rw [hstopTime]; decide)
  exact ⟨d, hd, hfills.category.trans (Value.text.inj htext).symm,
    hfills.stopTime.trans hstopTime, hfills.position.trans hposition, hok⟩

end Snapshot
end Metering
