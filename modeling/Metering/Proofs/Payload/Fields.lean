import Metering.Payload.Line
import Metering.Proofs.Context

/-!
# Proofs: payloads read back, field by field

Reading the value that a payload shows for a field gives another payload the same field and changes
nothing else. The fields that are written are therefore copied one by one into the payload of
defaults, and for the fields that are left out there is nothing to copy.

A load of minus zero is left out as well, and a load that is not finite has no text. So what comes
back is the payload itself if its load is neither.
-/

namespace Metering.Payload

open Json

/-! ## Copying fields -/

/-- The payload `q` with one field taken from `p`. -/
def copy (p q : Payload) : Field → Payload
  | .session => { q with session := p.session }
  | .category => { q with category := p.category }
  | .operation => { q with operation := p.operation }
  | .parent => { q with parent := p.parent }
  | .position => { q with position := p.position }
  | .description => { q with description := p.description }
  | .createTime => { q with createTime := p.createTime }
  | .startTime => { q with startTime := p.startTime }
  | .stopTime => { q with stopTime := p.stopTime }
  | .lastTime => { q with lastTime := p.lastTime }
  | .timeLimit => { q with timeLimit := p.timeLimit }
  | .iteration => { q with iteration := p.iteration }
  | .expected => { q with expected := p.expected }
  | .okPath => { q with okPath := p.okPath }
  | .rejectPath => { q with rejectPath := p.rejectPath }
  | .failPath => { q with failPath := p.failPath }
  | .failMessage => { q with failMessage := p.failMessage }
  | .context => { q with context := p.context }
  | .systemMemory => { q with systemMemory := p.systemMemory }
  | .processMemory => { q with processMemory := p.processMemory }
  | .cpuTime => { q with cpuTime := p.cpuTime }
  | .load => { q with load := p.load }

/-- What a field holds. -/
abbrev Contents : Field → Type
  | .category => String
  | .position | .createTime | .startTime | .stopTime | .lastTime | .timeLimit | .iteration
  | .expected => UInt64
  | .context => Context
  | .systemMemory => Words 3
  | .processMemory | .cpuTime => Words 2
  | .load => Binary64
  | .session | .operation | .parent | .description | .okPath | .rejectPath | .failPath
  | .failMessage => Option String

/-- What a payload holds in a field. -/
def get (p : Payload) : (f : Field) → Contents f
  | .session => p.session
  | .category => p.category
  | .operation => p.operation
  | .parent => p.parent
  | .position => p.position
  | .description => p.description
  | .createTime => p.createTime
  | .startTime => p.startTime
  | .stopTime => p.stopTime
  | .lastTime => p.lastTime
  | .timeLimit => p.timeLimit
  | .iteration => p.iteration
  | .expected => p.expected
  | .okPath => p.okPath
  | .rejectPath => p.rejectPath
  | .failPath => p.failPath
  | .failMessage => p.failMessage
  | .context => p.context
  | .systemMemory => p.systemMemory
  | .processMemory => p.processMemory
  | .cpuTime => p.cpuTime
  | .load => p.load

theorem get_copy_self (p q : Payload) (f : Field) : (copy p q f).get f = p.get f := by
  cases f <;> rfl

theorem get_copy_of_ne (p q : Payload) (f g : Field) (h : g ≠ f) :
    (copy p q f).get g = q.get g := by
  cases f <;> cases g <;> first | rfl | exact absurd rfl h

theorem ext_get {p q : Payload} (h : ∀ f, p.get f = q.get f) : p = q := by
  obtain ⟨⟩ := p
  obtain ⟨⟩ := q
  rw [Payload.mk.injEq]
  exact ⟨h .session, h .category, h .operation, h .parent, h .position, h .description,
    h .createTime, h .startTime, h .stopTime, h .lastTime, h .timeLimit, h .iteration, h .expected,
    h .okPath, h .rejectPath, h .failPath, h .failMessage, h .context, h .systemMemory,
    h .processMemory, h .cpuTime, h .load⟩

/-- Whether the load can be read back: it is finite and not minus zero. -/
def HasPlainLoad (p : Payload) : Prop := p.load.isFinite ∧ (p.load.isZero → p.load = .zero)

theorem eq_zero_of_nonZeros {n : Nat} {w : Words n} (h : nonZeros w = none) : w = .zero n := by
  have hzero : w.isZero = true := by simpa [nonZeros] using h
  obtain ⟨xs, rfl⟩ := w
  simp only [Words.zero, Words.mk.injEq]
  refine List.eq_replicate_iff.mpr ⟨rfl, ?_⟩
  intro x hx
  simpa using List.all_eq_true.mp hzero x hx

/-- A field that is left out has its default. -/
theorem get_eq_default (p : Payload) (hp : p.HasPlainLoad) (f : Field) (h : p.value? f = none) :
    p.get f = ({} : Payload).get f := by
  cases f
  case load => exact hp.2 (by simpa [value?] using h)
  case context =>
    have hempty : p.context.isEmpty = true := by simpa [value?] using h
    exact Context.isEmpty_iff.mp hempty
  case systemMemory => exact eq_zero_of_nonZeros h
  case processMemory => exact eq_zero_of_nonZeros h
  case cpuTime => exact eq_zero_of_nonZeros h
  all_goals simpa [get, value?, optionalText, nonZero] using h

/-! ## Reading a field -/

theorem reads_optionalText {o : Option String} {v : Value} (h : optionalText o = some v) :
    Reads (readOptional readText) v o := by
  obtain ⟨s, rfl, rfl⟩ := Option.map_eq_some_iff.mp h
  exact reads_optional_text s

theorem reads_nonZero {n : UInt64} {v : Value} (h : nonZero n = some v) : Reads readWord v n := by
  obtain rfl : Value.number (.ofNat n.toNat) = v := by
    unfold nonZero at h
    split at h
    · cases h
    · exact Option.some.inj h
  exact reads_word n

theorem reads_nonZeros {n : Nat} {w : Words n} {v : Value} (h : nonZeros w = some v) :
    Reads (readWords n) v w := by
  obtain rfl : Value.list (w.toList.map fun x => .number (.ofNat x.toNat)) = v := by
    unfold nonZeros at h
    split at h
    · cases h
    · exact Option.some.inj h
  exact reads_words w

/-- The value that a payload shows for a field is read as that field. -/
theorem reads_field (p q : Payload) (hp : p.HasPlainLoad) (f : Field) (v : Value)
    (h : p.value? f = some v) : Reads (readField q f) v (copy p q f) := by
  intro r hr
  cases f
  case category =>
    obtain ⟨-, rfl⟩ : p.category ≠ "" ∧ Value.text p.category = v := by simpa [value?] using h
    simp only [readField, reads_text p.category r hr, ok_bind, copy]
  case context =>
    obtain ⟨-, rfl⟩ : p.context.isEmpty = false ∧ p.context.toJson = v := by simpa [value?] using h
    simp only [readField, p.context.reads_toJson r hr, ok_bind, copy]
  case load =>
    obtain ⟨-, rfl⟩ : p.load.isZero = false ∧ Value.number (.ofBinary64 p.load) = v := by
      simpa [value?] using h
    simp only [readField, reads_optional_real p.load hp.1 r hr, ok_bind, copy, Option.getD_some]
  case systemMemory | processMemory | cpuTime =>
    simp only [readField, reads_nonZeros h r hr, ok_bind, copy]
  case position | createTime | startTime | stopTime | lastTime | timeLimit | iteration | expected =>
    simp only [readField, reads_nonZero h r hr, ok_bind, copy]
  all_goals simp only [readField, reads_optionalText h r hr, ok_bind, copy]

/-! ## Reading a payload -/

theorem ofKey?_key (f : Field) : Field.ofKey? f.key = some f := by
  cases f <;> rfl

/-- The members of some of the fields. -/
def membersOf (p : Payload) (fs : List Field) : List (String × Value) :=
  fs.filterMap fun f => (p.value? f).map (f.key, ·)

/-- Reading the members of some fields copies those of them that are written. -/
theorem membersRead_fields (p : Payload) (hp : p.HasPlainLoad) (fs : List Field) (g : Gathered)
    (hfs : fs.Nodup) (hnew : ∀ f ∈ fs, f ∉ g.seen) :
    ∃ g', MembersRead readMember (p.membersOf fs) g g' ∧
      g'.payload = (fs.filter fun f => (p.value? f).isSome).foldl (copy p) g.payload := by
  induction fs generalizing g with
  | nil => exact ⟨g, .nil g, rfl⟩
  | cons f fs ih =>
    obtain ⟨hf, hfs⟩ := List.nodup_cons.mp hfs
    rw [List.forall_mem_cons] at hnew
    cases hv : p.value? f with
    | none =>
      obtain ⟨g', hread, hpayload⟩ := ih g hfs hnew.2
      refine ⟨g', ?_, ?_⟩
      · simpa [membersOf, hv] using hread
      · simpa [hv] using hpayload
    | some v =>
      have hseen : ∀ f' ∈ fs, f' ∉ f :: g.seen := by
        intro f' hf' hmem
        rcases List.mem_cons.mp hmem with rfl | hmem
        · exact hf hf'
        · exact hnew.2 f' hf' hmem
      obtain ⟨g', hread, hpayload⟩ := ih ⟨copy p g.payload f, f :: g.seen⟩ hfs hseen
      refine ⟨g', ?_, ?_⟩
      · have hmember : ∀ r, Delimited r → readMember g f.key (':' :: (v.render ++ r)) =
            .ok (⟨copy p g.payload f, f :: g.seen⟩, r) := by
          intro r hr
          simp only [readMember, ofKey?_key, if_neg hnew.1, readColon_colon, ok_bind,
            reads_field p g.payload hp f v hv r hr]
        simpa [membersOf, hv] using MembersRead.cons hmember hread
      · simpa [hv] using hpayload

theorem get_foldl_copy (p q : Payload) (fs : List Field) (f : Field) :
    (fs.foldl (copy p) q).get f = if f ∈ fs then p.get f else q.get f := by
  induction fs generalizing q with
  | nil => rfl
  | cons g fs ih =>
    rw [List.foldl_cons, ih]
    by_cases hfs : f ∈ fs
    · simp [hfs]
    · by_cases hfg : f = g
      · subst hfg
        simp [hfs, get_copy_self]
      · simp [hfs, hfg, get_copy_of_ne p q g f hfg]

theorem mem_all (f : Field) : f ∈ Field.all := by
  cases f <;> decide

/-- A payload is read from its text. -/
theorem parse_text (p : Payload) (hp : p.HasPlainLoad) : parse p.text = .ok p := by
  obtain ⟨g, hread, hpayload⟩ :=
    membersRead_fields p hp Field.all {} (by decide) (fun f _ => List.not_mem_nil)
  have hg : g.payload = p := by
    apply ext_get
    intro f
    rw [hpayload, get_foldl_copy]
    cases hv : p.value? f with
    | some v => simp [mem_all, hv]
    | none => simp [hv, p.get_eq_default hp f hv]
  have hmembers : readMembers readMember {} (separated (renderMembers p.members) ++ ['\x7d']) =
      .ok (g, []) := readMembers_separated [] hread
  have hread : read p.text = .ok (p, []) := by
    simp only [text, Value.render, List.cons_append, read, skipSpaces_cons (c := '\x7b') _ rfl,
      hmembers, ok_bind, hg]
  rw [parse, readAll, hread]
  rfl

end Metering.Payload
