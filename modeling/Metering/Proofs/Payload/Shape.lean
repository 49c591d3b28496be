import Metering.Proofs.Json.Compact
import Metering.Proofs.Payload.Line
import Metering.Proofs.Payload.Meaning

/-!
# Proofs: the shape of payloads

What a payload looks like from the outside. Its text is a single line from one brace to another,
whatever the texts of the snapshot hold, and it spells one object. The keys of the object come in
the order of the fields, and a key is there exactly if the snapshot has something to show for its
field.
-/

namespace Metering

open Json (Value Spells SingleLine)

/-! ## What there is to show -/

/-- Whether a snapshot has something to show for a field. A text that may be absent is shown even if
it is empty. -/
def Snapshot.Shows (s : Snapshot) : Field → Prop
  | .session => ∃ text, s.session = some text
  | .category => s.category ≠ ""
  | .operation => ∃ text, s.operation = some text
  | .parent => ∃ text, s.parent = some text
  | .position => s.position ≠ 0
  | .description => ∃ text, s.description = some text
  | .createTime => s.createTime ≠ 0
  | .startTime => s.startTime ≠ 0
  | .stopTime => s.stopTime ≠ 0
  | .lastTime => s.lastTime ≠ 0
  | .timeLimit => s.timeLimit ≠ 0
  | .iteration => s.iteration ≠ 0
  | .expected => s.expected ≠ 0
  | .okPath => ∃ path, s.outcome = .ok (some path)
  | .rejectPath => ∃ path, s.outcome = .reject path
  | .failPath => ∃ path message, s.outcome = .fail path message
  | .failMessage => ∃ path message, s.outcome = .fail path (some message)
  | .context => s.context ≠ .empty
  | .systemMemory => ∃ n ∈ s.metrics.systemMemory.toList, n ≠ 0
  | .processMemory => ∃ n ∈ s.metrics.processMemory.toList, n ≠ 0
  | .cpuTime => ∃ n ∈ s.metrics.cpuTime.toList, n ≠ 0
  | .load => s.metrics.load.isFinite = true ∧ s.metrics.load.isZero = false

/-- The keys of a payload, in the order in which they are written. -/
def Payload.keyOrder : List String :=
  ["_", "c", "n", "ep", "#", "d", "t0", "t1", "t2", "t", "tl", "i", "ei", "ok", "rj", "fl", "fm",
    "ctx", "sm", "pm", "ct", "sl"]

/-- The key under which the path of an outcome is written. -/
def Outcome.pathKey? : Outcome → Option String
  | .unset | .ok none => none
  | .ok (some _) => some "ok"
  | .reject _ => some "rj"
  | .fail _ _ => some "fl"

/-- Whether keys are those that the payload of a snapshot has. -/
structure Snapshot.HasKeys (s : Snapshot) (keys : List String) : Prop where
  /-- The keys come in their order. -/
  sublist : keys.Sublist Payload.keyOrder
  /-- No key comes twice. -/
  nodup : keys.Nodup
  /-- The key of a field is there exactly if there is something to show for it. -/
  key_mem_iff : ∀ f : Field, f.key ∈ keys ↔ s.Shows f
  /-- There is one key for the path of an outcome at most. -/
  path_unique : ∀ k ∈ keys, ∀ k' ∈ keys,
    k ∈ ["ok", "rj", "fl"] → k' ∈ ["ok", "rj", "fl"] → k = k'
  /-- The key for the path of a success belongs to a success. -/
  isOk_of_mem : "ok" ∈ keys → s.outcome.isOk = true
  /-- The key for the path of a rejection tells a rejection. -/
  reject_mem_iff : "rj" ∈ keys ↔ s.outcome.isReject = true
  /-- The key for the path of a failure tells a failure. -/
  fail_mem_iff : "fl" ∈ keys ↔ s.outcome.isFail = true
  /-- A message comes with the path of a failure only. -/
  fail_mem_of_message : "fm" ∈ keys → "fl" ∈ keys

namespace Payload

/-! ## Which fields are written -/

theorem isSome_optionalText {o : Option String} :
    (optionalText o).isSome ↔ ∃ text, o = some text := by
  rw [optionalText, Option.isSome_map, Option.isSome_iff_exists]

theorem isSome_nonZero {n : UInt64} : (nonZero n).isSome ↔ n ≠ 0 := by
  by_cases h : n = 0 <;> simp [nonZero, h]

theorem isSome_nonZeros {k : Nat} {w : Words k} :
    (nonZeros w).isSome ↔ ∃ n ∈ w.toList, n ≠ 0 := by
  have hzero : w.isZero = true ↔ ¬ ∃ n ∈ w.toList, n ≠ 0 := by simp [Words.isZero]
  by_cases h : w.isZero = true
  · simp [nonZeros, h, hzero.mp h]
  · simp [nonZeros, h, not_not.mp (mt hzero.mpr h)]

/-- A field is written if there is something to show for it. -/
theorem isSome_value?_ofSnapshot (s : Snapshot) (f : Field) :
    ((ofSnapshot s).value? f).isSome ↔ s.Shows f := by
  cases f
  case category =>
    by_cases h : s.category = "" <;> simp [value?, ofSnapshot, Snapshot.Shows, h]
  case context =>
    by_cases h : s.context = .empty <;>
      simp [value?, ofSnapshot, Snapshot.Shows, Context.isEmpty_iff, h]
  case load =>
    by_cases hfinite : s.metrics.load.isFinite = true
    · cases hzero : s.metrics.load.isZero <;>
        simp [value?, ofSnapshot, Snapshot.Shows, hfinite, hzero]
    · have hzero : Binary64.zero.isZero = true := by decide
      simp [value?, ofSnapshot, Snapshot.Shows, hfinite, hzero]
  case okPath | rejectPath | failPath | failMessage =>
    simp only [value?, isSome_optionalText, ofSnapshot, Snapshot.Shows]
    cases s.outcome <;> simp
  case systemMemory | processMemory | cpuTime => exact isSome_nonZeros
  case position | createTime | startTime | stopTime | lastTime | timeLimit | iteration | expected =>
    exact isSome_nonZero
  all_goals exact isSome_optionalText

/-! ## The keys of a payload -/

theorem keys_members (p : Payload) :
    p.members.map Prod.fst = (Field.all.filter fun f => (p.value? f).isSome).map Field.key := by
  rw [members, List.map_filterMap, ← List.filterMap_eq_map, List.filterMap_filter]
  refine List.filterMap_congr fun f _ => ?_
  cases p.value? f <;> rfl

theorem keys_members_sublist (p : Payload) : (p.members.map Prod.fst).Sublist keyOrder := by
  rw [keys_members]
  exact List.filter_sublist.map Field.key

theorem key_mem_members_iff (p : Payload) (f : Field) :
    f.key ∈ p.members.map Prod.fst ↔ (p.value? f).isSome := by
  rw [keys_members, List.mem_map]
  constructor
  · rintro ⟨g, hg, hkey⟩
    obtain rfl := key_inj hkey
    exact (List.mem_filter.mp hg).2
  · intro h
    exact ⟨f, List.mem_filter.mpr ⟨mem_all f, h⟩, rfl⟩

/-- The payload of a snapshot has the keys of what the snapshot shows. -/
theorem hasKeys_members (s : Snapshot) : s.HasKeys ((ofSnapshot s).members.map Prod.fst) := by
  have hmem (f : Field) : f.key ∈ (ofSnapshot s).members.map Prod.fst ↔ s.Shows f :=
    (key_mem_members_iff _ f).trans (isSome_value?_ofSnapshot s f)
  have hok := hmem .okPath
  have hreject := hmem .rejectPath
  have hfail := hmem .failPath
  have hmessage := hmem .failMessage
  have hsublist := keys_members_sublist (ofSnapshot s)
  simp only [Field.key, Snapshot.Shows] at hok hreject hfail hmessage
  constructor
  case sublist => exact hsublist
  case nodup => exact hsublist.nodup (by decide)
  case key_mem_iff => exact hmem
  case path_unique =>
    have hkey (k : String) (hk : k ∈ (ofSnapshot s).members.map Prod.fst)
        (hpath : k ∈ ["ok", "rj", "fl"]) : s.outcome.pathKey? = some k := by
      simp only [List.mem_cons, List.not_mem_nil, or_false] at hpath
      rcases hpath with rfl | rfl | rfl
      · obtain ⟨path, h⟩ := hok.mp hk
        rw [h, Outcome.pathKey?]
      · obtain ⟨path, h⟩ := hreject.mp hk
        rw [h, Outcome.pathKey?]
      · obtain ⟨path, message, h⟩ := hfail.mp hk
        rw [h, Outcome.pathKey?]
    intro k hk k' hk' hpath hpath'
    have hsame := (hkey k hk hpath).symm.trans (hkey k' hk' hpath')
    exact Option.some.inj hsame
  case isOk_of_mem =>
    rw [hok]
    rintro ⟨path, h⟩
    rw [h]
    rfl
  case reject_mem_iff =>
    rw [hreject]
    cases s.outcome <;> simp [Outcome.isReject]
  case fail_mem_iff =>
    rw [hfail]
    cases s.outcome <;> simp [Outcome.isFail]
  case fail_mem_of_message =>
    rw [hmessage, hfail]
    rintro ⟨path, message, h⟩
    exact ⟨path, some message, h⟩

end Payload

namespace Snapshot

/-- The shape of a payload. Whatever a snapshot holds, its text is a single line from an opening
brace to a closing one, and it spells one object. The keys of the object are those of the fields
that the snapshot shows, in their order. -/
theorem encode_shape (s : Snapshot) :
    SingleLine s.encode.toList ∧
      s.encode.toList.head? = some '\x7b' ∧ s.encode.toList.getLast? = some '\x7d' ∧
      ∃ ms, Spells (.value (.object ms)) s.encode.toList ∧ s.HasKeys (ms.map Prod.fst) := by
  have htext : s.encode.toList = (Value.object (Payload.ofSnapshot s).members).render := by
    rw [encode, String.toList_ofList, Payload.text]
  obtain ⟨body, hbody⟩ := s.toList_encode
  refine ⟨?_, ?_, ?_, (Payload.ofSnapshot s).members, ?_, Payload.hasKeys_members s⟩
  · rw [htext]
    exact Json.singleLine_render _
  · rw [hbody]
    rfl
  · rw [hbody, List.getLast?_concat]
  · rw [htext]
    exact Json.spells_render _

end Snapshot
end Metering
