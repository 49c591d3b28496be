import Metering.Proofs.Payload.NormalForm
import Metering.Proofs.Text

/-!
# Proofs: payloads found in lines

A payload starts with a brace and ends with one. So it is found again in a line as long as there is
no opening brace in front of it and no closing brace behind it, whatever else the payload holds.

A line in which no closing brace comes after an opening one has no payload, with one exception:
where the last closing brace stands right before the first opening one, the part from the one to the
other is the empty text, and this text is refused for itself.
-/

namespace Metering

/-- A part between braces is the section of a line that has no opening brace before it and no
closing brace after it. -/
theorem payloadSection_append (p body s : List Char) (hp : '\x7b' ∉ p) (hs : '\x7d' ∉ s) :
    payloadSection (p ++ ('\x7b' :: body ++ ['\x7d']) ++ s) =
      some ('\x7b' :: body ++ ['\x7d']) := by
  have hbefore : (p ++ ('\x7b' :: body ++ ['\x7d']) ++ s).takeWhile (· != '\x7b') = p := by
    have h := takeWhile_append_cons p (body ++ ['\x7d'] ++ s) '\x7b' hp
    simpa using h
  have hthrough :
      ((p ++ ('\x7b' :: body ++ ['\x7d']) ++ s).reverse.dropWhile (· != '\x7d')).reverse =
        p ++ ('\x7b' :: body ++ ['\x7d']) := by
    have hs' : '\x7d' ∉ s.reverse := by simpa using hs
    have h := dropWhile_append_cons s.reverse (p ++ '\x7b' :: body).reverse '\x7d' hs'
    have hreverse : (p ++ ('\x7b' :: body ++ ['\x7d']) ++ s).reverse =
        s.reverse ++ '\x7d' :: (p ++ '\x7b' :: body).reverse := by simp
    rw [hreverse, h]
    simp
  simp only [payloadSection, hbefore, hthrough, List.drop_left]
  rw [if_pos]
  simp

theorem Snapshot.toList_encode (s : Snapshot) :
    ∃ body, s.encode.toList = '\x7b' :: body ++ ['\x7d'] := by
  refine ⟨Json.separated (Json.renderMembers (Payload.ofSnapshot s).members), ?_⟩
  rw [Snapshot.encode, String.toList_ofList, Payload.text, Json.Value.render]

/-- A snapshot that is written into a line is read from it as from its text alone. -/
theorem Snapshot.parseLine_append (s : Snapshot) (p q : String) (hp : '\x7b' ∉ p.toList)
    (hq : '\x7d' ∉ q.toList) : parseLine (p ++ s.encode ++ q) = decode s.encode := by
  obtain ⟨body, hbody⟩ := s.toList_encode
  have hsection := payloadSection_append p.toList body q.toList hp hq
  simp only [parseLine, decode, String.toList_append, hbody, hsection]

/-! ## What a line lacks -/

/-- Whether some opening brace of a line is followed by a closing one. -/
def HasBraces (line : List Char) : Prop := ∃ u v w, line = u ++ '\x7b' :: v ++ '\x7d' :: w

/-- Whether the last closing brace of a line stands right before the first opening one. -/
def BracesTouch (line : List Char) : Prop :=
  ∃ u w, line = u ++ '\x7d' :: '\x7b' :: w ∧ '\x7b' ∉ u ∧ '\x7d' ∉ w

theorem exists_last_of_mem {c : Char} {s : List Char} (h : c ∈ s) :
    ∃ u w, s = u ++ c :: w ∧ c ∉ w := by
  obtain ⟨w, u, hs, hw⟩ := List.eq_append_cons_of_mem (List.mem_reverse.mpr h)
  refine ⟨u.reverse, w.reverse, ?_, by simpa using hw⟩
  rw [← List.reverse_inj, hs]
  simp

/-- Behind the first opening brace of such a line there is a closing one. -/
theorem HasBraces.mem_of_first {u x : List Char} (h : HasBraces (u ++ '\x7b' :: x))
    (hu : '\x7b' ∉ u) : '\x7d' ∈ x := by
  obtain ⟨u', v, w, heq⟩ := h
  rw [List.append_assoc, List.cons_append] at heq
  rcases List.append_eq_append_iff.mp heq with ⟨a, -, hx⟩ | ⟨a, hua, hx⟩
  · cases a with
    | nil =>
      rw [List.nil_append] at hx
      rw [(List.cons.inj hx).2]
      simp
    | cons c a =>
      rw [(List.cons.inj hx).2]
      simp
  · cases a with
    | nil =>
      rw [List.nil_append] at hx
      rw [← (List.cons.inj hx).2]
      simp
    | cons c a =>
      obtain rfl := (List.cons.inj hx).1
      exact absurd (by rw [hua]; simp) hu

theorem HasBraces.exists_section {line : List Char} (h : HasBraces line) :
    ∃ u body w, line = u ++ ('\x7b' :: body ++ ['\x7d']) ++ w ∧ '\x7b' ∉ u ∧ '\x7d' ∉ w := by
  have hmem : '\x7b' ∈ line := by
    obtain ⟨u, v, w, rfl⟩ := h
    simp
  obtain ⟨u, x, rfl, hu⟩ := List.eq_append_cons_of_mem hmem
  obtain ⟨body, w, rfl, hw⟩ := exists_last_of_mem (h.mem_of_first hu)
  exact ⟨u, body, w, by simp, hu, hw⟩

theorem payloadSection_of_touch {line : List Char} (h : BracesTouch line) :
    payloadSection line = some [] := by
  obtain ⟨u, w, rfl, hu, hw⟩ := h
  have hbefore : (u ++ '\x7d' :: '\x7b' :: w).takeWhile (· != '\x7b') = u ++ ['\x7d'] := by
    have hfirst := takeWhile_append_cons (u ++ ['\x7d']) w '\x7b' (by simpa using hu)
    simpa using hfirst
  have hthrough : ((u ++ '\x7d' :: '\x7b' :: w).reverse.dropWhile (· != '\x7d')).reverse =
      u ++ ['\x7d'] := by
    have hlast := dropWhile_append_cons ('\x7b' :: w).reverse u.reverse '\x7d' (by simpa using hw)
    rw [List.reverse_append, List.reverse_cons, List.append_assoc, List.singleton_append, hlast]
    simp
  simp only [payloadSection, hbefore, hthrough, List.drop_length]
  rw [if_pos]
  simp

/-- If the part reaches from the first opening brace as far as the last closing one, one of the two
is behind the other or they touch. -/
theorem payloadSection_eq_none {line : List Char} (hbraces : ¬ HasBraces line)
    (htouch : ¬ BracesTouch line) : payloadSection line = none := by
  rw [payloadSection, if_neg]
  rintro ⟨hopen, hclose, hle⟩
  obtain ⟨u, x, rfl, hu⟩ := List.eq_append_cons_of_mem hopen
  have hx : '\x7d' ∉ x := by
    intro hx
    obtain ⟨v, w, rfl⟩ := List.append_of_mem hx
    exact hbraces ⟨u, v, w, by simp⟩
  have hmem : '\x7d' ∈ u := by simpa [hx] using hclose
  obtain ⟨u', v, rfl, hv⟩ := exists_last_of_mem hmem
  have hthrough : ((u' ++ '\x7d' :: v ++ '\x7b' :: x).reverse.dropWhile (· != '\x7d')).reverse =
      u' ++ ['\x7d'] := by
    have hlast := dropWhile_append_cons (v ++ '\x7b' :: x).reverse u'.reverse '\x7d'
      (by simp [hv, hx])
    rw [List.append_assoc, List.cons_append, List.reverse_append, List.reverse_cons,
      List.append_assoc, List.singleton_append, hlast]
    simp
  rw [takeWhile_append_cons _ _ _ hu, hthrough] at hle
  have hnil : v = [] := by
    rw [← List.length_eq_zero_iff]
    simp only [List.length_append, List.length_cons, List.length_nil] at hle
    omega
  subst hnil
  refine htouch ⟨u', x, by simp, ?_, hx⟩
  exact fun hu' => hu (List.mem_append_left _ hu')

namespace Snapshot

theorem decodeChars_ne_missing (text : List Char) (line : String) :
    decodeChars text ≠ .error (.missingPayload line) := by
  unfold decodeChars
  split <;> nofun

/-- A line with a closing brace behind an opening one is read as the part from the first opening
brace through the last closing one. Where the last closing brace touches the first opening one, the
empty text is read instead. Only a line of neither kind has no payload, and the error says the whole
line. -/
theorem line_errors_classified (line : String) :
    (HasBraces line.toList → ∃ u body w,
        line.toList = u ++ ('\x7b' :: body ++ ['\x7d']) ++ w ∧ '\x7b' ∉ u ∧ '\x7d' ∉ w ∧
          parseLine line = decode (String.ofList ('\x7b' :: body ++ ['\x7d']))) ∧
      (BracesTouch line.toList → parseLine line = .error (.malformed .endOfValue)) ∧
      (∀ l, parseLine line = .error (.missingPayload l) ↔
        l = line ∧ ¬ HasBraces line.toList ∧ ¬ BracesTouch line.toList) ∧
      ((∃ fault, parseLine line = .error (.malformed fault)) →
        HasBraces line.toList ∨ BracesTouch line.toList) := by
  have hread {text : List Char} (h : payloadSection line.toList = some text) :
      parseLine line = decodeChars text := by rw [parseLine, h]
  have htouching (h : BracesTouch line.toList) : parseLine line = decodeChars [] :=
    hread (payloadSection_of_touch h)
  have hmissing (h : ¬ HasBraces line.toList) (h' : ¬ BracesTouch line.toList) :
      parseLine line = .error (.missingPayload line) := by
    rw [parseLine, payloadSection_eq_none h h']
  have hfound (h : HasBraces line.toList) : ∃ u body w,
      line.toList = u ++ ('\x7b' :: body ++ ['\x7d']) ++ w ∧ '\x7b' ∉ u ∧ '\x7d' ∉ w ∧
        parseLine line = decode (String.ofList ('\x7b' :: body ++ ['\x7d'])) := by
    obtain ⟨u, body, w, hline, hu, hw⟩ := h.exists_section
    refine ⟨u, body, w, hline, hu, hw, ?_⟩
    rw [decode, String.toList_ofList]
    apply hread
    rw [hline, payloadSection_append u body w hu hw]
  refine ⟨hfound, htouching, ?_, ?_⟩
  · intro l
    constructor
    · intro h
      by_cases hbraces : HasBraces line.toList
      · obtain ⟨u, body, w, -, -, -, hparse⟩ := hfound hbraces
        rw [hparse, decode] at h
        exact absurd h (decodeChars_ne_missing _ l)
      by_cases htouch : BracesTouch line.toList
      · rw [htouching htouch] at h
        exact absurd h (decodeChars_ne_missing _ l)
      rw [hmissing hbraces htouch] at h
      cases h
      exact ⟨rfl, hbraces, htouch⟩
    · rintro ⟨rfl, hbraces, htouch⟩
      exact hmissing hbraces htouch
  · rintro ⟨fault, h⟩
    by_contra hneither
    rw [not_or] at hneither
    rw [hmissing hneither.1 hneither.2] at h
    cases h

/-- A line with no closing brace behind an opening one is not always said to have no payload. -/
theorem not_missing_where_braces_touch :
    ¬ ∀ line : String,
      parseLine line = .error (.missingPayload line) ↔ ¬ HasBraces line.toList := by
  intro h
  have hmissing : parseLine "\x7d\x7b" = .error (.missingPayload "\x7d\x7b") := by
    rw [h]
    rintro ⟨u, v, w, heq⟩
    -- Two characters leave room for the two braces alone, in the other order.
    have hlength := congrArg List.length heq
    simp at hlength
    obtain ⟨rfl, rfl, rfl⟩ : u = [] ∧ v = [] ∧ w = [] := by
      simp only [← List.length_eq_zero_iff]
      omega
    revert heq
    decide
  revert hmissing
  decide +kernel

end Snapshot
end Metering
