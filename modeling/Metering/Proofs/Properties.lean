import Mathlib.Data.List.Forall2
import Metering.Config.Property
import Metering.Proofs.Duration

/-!
# Proofs: properties are read one by one

A configuration holds one setting for each property. The setting is what the property's own value
says; where there is no value, or the value says nothing, it is the default. Only the period and the
flags have values that say nothing, and each of these is reported, in the order of the properties.
-/

namespace Metering

/-! ## Words in any case -/

namespace Text

theorem toNat_toLower (c : Char) :
    c.toLower.toNat = if 65 ≤ c.toNat ∧ c.toNat ≤ 90 then c.toNat + 32 else c.toNat := by
  have hcapital : (c.val ≥ 'A'.val ∧ c.val ≤ 'Z'.val) ↔ 65 ≤ c.toNat ∧ c.toNat ≤ 90 := Iff.rfl
  unfold Char.toLower
  split
  · next h =>
    have hle := (hcapital.mp h).2
    have h32 : (32 : UInt32).toNat = 32 := rfl
    rw [if_pos (hcapital.mp h)]
    change (c.val + 32).toNat = c.val.toNat + 32
    change c.val.toNat ≤ 90 at hle
    rw [UInt32.toNat_add, h32]
    omega
  · next h => rw [if_neg fun hc => h (hcapital.mpr hc)]

/-- Whether a text is a word of small letters up to ASCII case: where the word has a letter, the
text has it as well or its capital, which stands 32 places earlier. -/
def IsWord (word s : List Char) : Prop :=
  List.Forall₂ (fun c letter => c = letter ∨ c.toNat + 32 = letter.toNat) s word

theorem toLower_eq_iff {c letter : Char} (h : 97 ≤ letter.toNat ∧ letter.toNat ≤ 122) :
    c.toLower = letter ↔ c = letter ∨ c.toNat + 32 = letter.toNat := by
  rw [← Char.toNat_inj, ← Char.toNat_inj, toNat_toLower]
  split <;> omega

theorem lower_eq_iff {word : List Char} (hword : ∀ c ∈ word, 97 ≤ c.toNat ∧ c.toNat ≤ 122)
    {s : List Char} : lower s = word ↔ IsWord word s := by
  induction word generalizing s with
  | nil => simp [lower, IsWord]
  | cons letter word ih =>
    obtain ⟨hletter, hword⟩ := List.forall_mem_cons.mp hword
    cases s with
    | nil => simp [lower, IsWord]
    | cons c s =>
      rw [IsWord, List.forall₂_cons, ← toLower_eq_iff hletter, ← IsWord, ← ih hword, lower, lower,
        List.map_cons, List.cons.injEq]

theorem isBlank_toLower (c : Char) : isBlank c.toLower = isBlank c := by
  rw [Bool.eq_iff_iff]
  simp only [isBlank, toNat_toLower, Bool.or_eq_true, Bool.and_eq_true, decide_eq_true_eq,
    beq_iff_eq]
  split
  · omega
  · rfl

end Text

/-! ## Flags -/

open Text

/-- The word for a flag. -/
def flagWord : Bool → List Char
  | true => ['t', 'r', 'u', 'e']
  | false => ['f', 'a', 'l', 's', 'e']

/-- The texts of a flag: its word in any ASCII case, between white space. -/
inductive SpellsFlag : Bool → List Char → Prop
  /-- The word, with white space around it. -/
  | mk {b : Bool} {before word after : List Char} :
      Blank before → IsWord (flagWord b) word → Blank after →
      SpellsFlag b (before ++ (word ++ after))

theorem flagWord_letters (b : Bool) : ∀ c ∈ flagWord b, 97 ≤ c.toNat ∧ c.toNat ≤ 122 := by
  cases b <;> simp [flagWord]

theorem isBlank_of_mem_flagWord {b : Bool} {c : Char} (h : c ∈ flagWord b) : isBlank c = false := by
  have hletter := flagWord_letters b c h
  simp only [isBlank, Bool.or_eq_false_iff, Bool.and_eq_false_iff, decide_eq_false_iff_not,
    beq_eq_false_iff_ne]
  omega

/-- Nothing is trimmed off a word, whatever its case. -/
theorem trim_of_lower_eq {s : List Char} {b : Bool} (h : lower s = flagWord b) : trim s = s := by
  have hne : s ≠ [] := by
    rintro rfl
    cases b <;> cases h
  have hblank : ∀ c ∈ s, isBlank c = false := by
    intro c hc
    have hletter : c.toLower ∈ flagWord b := h ▸ List.mem_map_of_mem hc
    rw [← isBlank_toLower, isBlank_of_mem_flagWord hletter]
  have htrim := trim_append hne hblank []
  rwa [List.append_nil, show trimEnd [] = [] from rfl, List.append_nil] at htrim

theorem parseFlag?_eq_some_iff_lower {text : List Char} {b : Bool} :
    parseFlag? text = some b ↔ lower (trim text) = flagWord b := by
  unfold parseFlag?
  dsimp only
  split
  · next h => rw [h]; cases b <;> decide
  · next htrue =>
    split
    · next h => rw [h]; cases b <;> decide
    · next hfalse =>
      refine iff_of_false (fun h => nomatch h) ?_
      cases b
      · exact hfalse
      · exact htrue

/-- A text is read as a flag exactly if it spells that flag. -/
theorem parseFlag?_eq_some_iff {text : List Char} {b : Bool} :
    parseFlag? text = some b ↔ SpellsFlag b text := by
  rw [parseFlag?_eq_some_iff_lower]
  constructor
  · intro h
    obtain ⟨before, after, hbefore, hafter, htext⟩ := exists_append_trim text
    rw [htext]
    exact .mk hbefore ((lower_eq_iff (flagWord_letters b)).mp h) hafter
  · rintro ⟨hbefore, hword, hafter⟩
    have h := (lower_eq_iff (flagWord_letters b)).mpr hword
    rw [trim_blank_append hbefore, trim_append_blank _ hafter, trim_of_lower_eq h, h]

example : parseFlag? "\u2003TRUE\n".toList = some true := by decide

/-! ## Settings -/

/-- What a configuration holds for a property. -/
inductive Setting where
  /-- A period. -/
  | period (d : Duration)
  /-- A flag. -/
  | flag (b : Bool)
  /-- A text in front of an event or behind it. -/
  | affix (text : String)
  deriving DecidableEq

/-- The setting of a property. -/
def Config.setting (c : Config) : Property → Setting
  | .progressPeriod => .period c.progressPeriod
  | .printStatus => .flag c.printStatus
  | .printCategory => .flag c.printCategory
  | .printPosition => .flag c.printPosition
  | .printLoad => .flag c.printLoad
  | .printMemory => .flag c.printMemory
  | .messageBefore => .affix c.messageAffixes.before
  | .messageAfter => .affix c.messageAffixes.after
  | .dataBefore => .affix c.dataAffixes.before
  | .dataAfter => .affix c.dataAffixes.after

namespace Property

/-- What a value says about a property: a duration, a flag, or any text as it stands. -/
def Says (p : Property) (value : String) (s : Setting) : Prop :=
  match p with
  | .progressPeriod => ∃ d, Duration.parse? value.toList = some d ∧ s = .period d
  | .printStatus | .printCategory | .printPosition | .printLoad | .printMemory =>
    ∃ b, SpellsFlag b value.toList ∧ s = .flag b
  | .messageBefore | .messageAfter | .dataBefore | .dataAfter => s = .affix value

/-- The setting that a property has where its value says nothing. -/
def fallback (p : Property) : Setting := ({} : Config).setting p

/-- The setting that a property has to have, given its value if there is one. -/
inductive Settles (p : Property) : Option String → Setting → Prop
  /-- The setting is what the value says. -/
  | said {value : String} {s : Setting} : p.Says value s → Settles p (some value) s
  /-- The value says nothing, so the default stands. -/
  | misread {value : String} : (∀ s, ¬ p.Says value s) → Settles p (some value) p.fallback
  /-- There is no value, so the default stands. -/
  | absent : Settles p none p.fallback

/-- The properties whose values may say nothing, in the order in which they are read. -/
def checked : List Property :=
  [.progressPeriod, .printStatus, .printCategory, .printPosition, .printLoad, .printMemory]

/-- The setting that is read from the value of a property. -/
def parse? (p : Property) (value : String) : Option Setting :=
  match p with
  | .progressPeriod => (Duration.parse? value.toList).map .period
  | .printStatus | .printCategory | .printPosition | .printLoad | .printMemory =>
    (parseFlag? value.toList).map .flag
  | .messageBefore | .messageAfter | .dataBefore | .dataAfter => some (.affix value)

theorem says_iff {p : Property} {value : String} {s : Setting} :
    p.Says value s ↔ p.parse? value = some s := by
  cases p with
  | progressPeriod => simp only [parse?, Says, Option.map_eq_some_iff, @eq_comm _ s]
  | printStatus | printCategory | printPosition | printLoad | printMemory =>
    simp only [parse?, Says, Option.map_eq_some_iff, parseFlag?_eq_some_iff, @eq_comm _ s]
  | messageBefore | messageAfter | dataBefore | dataAfter =>
    simp only [parse?, Says, Option.some.injEq, @eq_comm _ s]

theorem parse?_eq_none_iff {p : Property} {value : String} :
    p.parse? value = none ↔ ∀ s, ¬ p.Says value s := by
  simp only [Option.eq_none_iff_forall_ne_some, ne_eq, says_iff]

/-- Every text is an affix. -/
theorem mem_checked_of_misread {p : Property} {value : String} (h : ∀ s, ¬ p.Says value s) :
    p ∈ checked := by
  cases p with
  | messageBefore | messageAfter | dataBefore | dataAfter => exact absurd rfl (h (.affix value))
  | _ => decide

/-- The default that a warning shows is a value that says so. -/
theorem says_default {w : Warning} (h : w.property ∈ checked) :
    w.property.Says w.default w.property.fallback := by
  have hdefault : ∀ p ∈ checked, p.parse? (Warning.default ⟨p, ""⟩) = some p.fallback := by decide
  exact says_iff.mpr (hdefault w.property h)

/-- The warning about the value of a property, if it needs one. -/
def warning? (lookup : Lookup) (p : Property) : Option Warning :=
  (lookup p.name).bind fun value => if (p.parse? value).isNone then some ⟨p, value⟩ else none

theorem warning?_eq_some_iff {lookup : Lookup} {p : Property} {w : Warning} :
    warning? lookup p = some w ↔
      w.property = p ∧ lookup p.name = some w.value ∧ ∀ s, ¬ p.Says w.value s := by
  obtain ⟨q, value⟩ := w
  simp only [warning?, Option.bind_eq_some_iff, Option.ite_none_right_eq_some, Option.some.injEq,
    Warning.mk.injEq, Option.isNone_iff_eq_none, parse?_eq_none_iff]
  constructor
  · rintro ⟨v, hv, hnot, rfl, rfl⟩
    exact ⟨rfl, hv, hnot⟩
  · rintro ⟨rfl, hv, hnot⟩
    exact ⟨value, hv, hnot, rfl, rfl⟩

/-! ## Reading one property -/

section

variable {α : Type} {read? : List Char → Option α} {p : Property} {f : α → Setting}
variable (hread : ∀ value, p.parse? value = (read? value.toList).map f)
include hread

theorem setting_readProperty (d : α) (lookup : Lookup) :
    f (readProperty read? d lookup p).1 = ((lookup p.name).bind p.parse?).getD (f d) := by
  unfold readProperty
  cases lookup p.name with
  | none => rfl
  | some value =>
    rw [Option.bind_some, hread]
    dsimp only
    cases read? value.toList <;> rfl

theorem warnings_readProperty (d : α) (lookup : Lookup) :
    (readProperty read? d lookup p).2 = (warning? lookup p).toList := by
  unfold readProperty warning?
  cases lookup p.name with
  | none => rfl
  | some value =>
    rw [Option.bind_some, hread]
    dsimp only
    cases read? value.toList <;> rfl

end

theorem setting_getD (f : String → Setting) (value : Option String) :
    f (value.getD "") = (value.bind fun text => some (f text)).getD (f "") := by
  cases value <;> rfl

end Property

namespace Config

open Property

/-! ## Reading all of them -/

theorem setting_ofLookup (lookup : Lookup) (p : Property) :
    (ofLookup lookup).1.setting p = ((lookup p.name).bind p.parse?).getD p.fallback := by
  cases p with
  | progressPeriod | printStatus | printCategory | printPosition | printLoad | printMemory =>
    exact setting_readProperty (fun _ => rfl) _ lookup
  | messageBefore | messageAfter | dataBefore | dataAfter => exact setting_getD .affix _

theorem warnings_ofLookup (lookup : Lookup) :
    (ofLookup lookup).2 = checked.filterMap (warning? lookup) := by
  rw [List.filterMap_eq_flatMap_toList]
  simp only [ofLookup, checked, List.flatMap_cons, List.flatMap_nil, List.append_nil,
    List.append_assoc]
  rw [warnings_readProperty fun _ => rfl, warnings_readProperty fun _ => rfl,
    warnings_readProperty fun _ => rfl, warnings_readProperty fun _ => rfl,
    warnings_readProperty fun _ => rfl, warnings_readProperty fun _ => rfl]

theorem mem_warnings_iff {lookup : Lookup} {w : Warning} :
    w ∈ (ofLookup lookup).2 ↔
      lookup w.property.name = some w.value ∧ ∀ s, ¬ w.property.Says w.value s := by
  rw [warnings_ofLookup, List.mem_filterMap]
  constructor
  · rintro ⟨p, -, hw⟩
    obtain ⟨rfl, hvalue, hnot⟩ := warning?_eq_some_iff.mp hw
    exact ⟨hvalue, hnot⟩
  · rintro ⟨hvalue, hnot⟩
    exact ⟨w.property, mem_checked_of_misread hnot, warning?_eq_some_iff.mpr ⟨rfl, hvalue, hnot⟩⟩

theorem sublist_warnings (lookup : Lookup) :
    ((ofLookup lookup).2.map (·.property)).Sublist checked := by
  rw [warnings_ofLookup]
  generalize checked = ps
  induction ps with
  | nil => exact .slnil
  | cons p ps ih =>
    cases hw : warning? lookup p with
    | none =>
      rw [List.filterMap_cons_none hw]
      exact ih.cons p
    | some w =>
      obtain ⟨hp, -⟩ := warning?_eq_some_iff.mp hw
      rw [List.filterMap_cons_some hw, List.map_cons, hp]
      exact ih.cons_cons p

theorem settles_setting_ofLookup (lookup : Lookup) (p : Property) :
    p.Settles (lookup p.name) ((ofLookup lookup).1.setting p) := by
  rw [setting_ofLookup]
  cases lookup p.name with
  | none => exact .absent
  | some value =>
    rw [Option.bind_some]
    cases h : p.parse? value with
    | none => exact .misread (parse?_eq_none_iff.mp h)
    | some s => exact .said (says_iff.mpr h)

/-- Every property is settled by its own value, whatever the others are. The values that say nothing
are reported as they were given, each one once and in the order in which the properties are read,
and nothing else is reported. -/
theorem ofLookup_reads_each_property (lookup : Lookup) :
    (∀ p : Property, p.Settles (lookup p.name) ((ofLookup lookup).1.setting p)) ∧
      (∀ (other : Lookup) (p : Property), lookup p.name = other p.name →
        (ofLookup lookup).1.setting p = (ofLookup other).1.setting p) ∧
      ((ofLookup lookup).2.map (·.property)).Sublist checked ∧
      ∀ w : Warning, w ∈ (ofLookup lookup).2 ↔
        lookup w.property.name = some w.value ∧ ∀ s, ¬ w.property.Says w.value s := by
  refine ⟨settles_setting_ofLookup lookup, ?_, sublist_warnings lookup, fun w => mem_warnings_iff⟩
  intro other p h
  rw [setting_ofLookup, setting_ofLookup, h]

/-- A flag is read as if no other property had a value, and the others are reported. -/
theorem ofLookup_reads_each_property_beside :
    let lookup : Lookup := fun name =>
      some (if name = Property.printLoad.name then " True\n" else "soon")
    let other : Lookup := fun name => if name = Property.printLoad.name then some " True\n" else none
    lookup Property.printLoad.name = other Property.printLoad.name ∧
      (ofLookup lookup).1.setting .printLoad = (ofLookup other).1.setting .printLoad ∧
      (⟨.printStatus, "soon"⟩ : Warning) ∈ (ofLookup lookup).2 := by
  intro lookup other
  have hsame : lookup Property.printLoad.name = other Property.printLoad.name := rfl
  obtain ⟨-, hown, -, hreported⟩ := ofLookup_reads_each_property lookup
  exact ⟨hsame, hown other .printLoad hsame,
    (hreported ⟨.printStatus, "soon"⟩).mpr ⟨rfl, parse?_eq_none_iff.mp rfl⟩⟩

end Config

end Metering
