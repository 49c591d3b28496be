import Metering.Json.Skip
import Metering.Proofs.Json.Grammar

/-!
# Proofs: values are skipped to their end

Each text of a value is skipped, however deeply the value is nested, and nothing of what follows it.
The machine may rely on two steps for each character: an opening bracket takes a second step to look
at what follows it, and the bracket that closes it takes only one.
-/

namespace Metering.Json

namespace Skipping

/-! ## Steps of the machine -/

theorem run_succ {k k' : Skipping} (h : k.step = .ok k') (n : Nat) : run (n + 1) k = run n k' := by
  obtain ⟨due, opened, rest⟩ := k
  by_cases hdone : due = .next ∧ opened = []
  · obtain ⟨rfl, rfl⟩ := hdone
    -- The machine stands still, and so does its step.
    obtain rfl : (⟨.next, [], rest⟩ : Skipping) = k' := Except.ok.inj h
    cases n <;> rfl
  · rw [run, h, ok_bind]
    split
    · next hdue hopened => exact absurd ⟨hdue, hopened⟩ hdone
    · rfl

/-- Whether a machine comes to another one in so many steps. -/
def Takes (n : Nat) (k k' : Skipping) : Prop := ∀ m, run (n + m) k = run m k'

theorem takes_succ {n : Nat} {k k₁ k₂ : Skipping} (h : k.step = .ok k₁) (h' : Takes n k₁ k₂) :
    Takes (n + 1) k k₂ := by
  intro m
  rw [Nat.add_right_comm, run_succ h, h' m]

theorem takes_one {k k' : Skipping} (h : k.step = .ok k') : Takes 1 k k' :=
  takes_succ h fun m => by rw [Nat.zero_add]

theorem Takes.trans {n n' : Nat} {k k₁ k₂ : Skipping} (h : Takes n k k₁) (h' : Takes n' k₁ k₂) :
    Takes (n + n') k k₂ := by
  intro m
  rw [Nat.add_assoc, h, h']

section

variable {b : List Char} (hb : Blank b) (bs : List Bracket) (r : List Char)

include hb

theorem step_atom {c : Char} {rest : List Char} (hspace : isSpace c = false) (hlist : c ≠ '[')
    (hobject : c ≠ '\x7b') (hatom : skipAtom c rest = .ok r) :
    step ⟨.value, bs, b ++ c :: rest⟩ = .ok ⟨.next, bs, r⟩ := by
  simp [step, skipSpaces_blank_cons hb hspace, hatom]

theorem step_openList : step ⟨.value, bs, b ++ '[' :: r⟩ = .ok ⟨.first, .list :: bs, r⟩ := by
  rw [step, skipSpaces_blank_cons hb rfl]
  rfl

theorem step_openObject :
    step ⟨.value, bs, b ++ '\x7b' :: r⟩ = .ok ⟨.first, .object :: bs, r⟩ := by
  rw [step, skipSpaces_blank_cons hb rfl]
  rfl

theorem step_emptyList : step ⟨.first, .list :: bs, b ++ ']' :: r⟩ = .ok ⟨.next, bs, r⟩ := by
  rw [step, skipSpaces_blank_cons hb rfl]
  rfl

theorem step_emptyObject :
    step ⟨.first, .object :: bs, b ++ '\x7d' :: r⟩ = .ok ⟨.next, bs, r⟩ := by
  rw [step, skipSpaces_blank_cons hb rfl]
  rfl

theorem step_firstItem {c : Char} (hspace : isSpace c = false) (hc : c ≠ ']') :
    step ⟨.first, .list :: bs, b ++ c :: r⟩ = .ok ⟨.value, .list :: bs, c :: r⟩ := by
  simp [step, skipSpaces_blank_cons hb hspace, hc]

theorem step_firstKey :
    step ⟨.first, .object :: bs, b ++ '"' :: r⟩ = .ok ⟨.key, .object :: bs, '"' :: r⟩ := by
  rw [step, skipSpaces_blank_cons hb rfl]
  rfl

theorem step_closeList : step ⟨.next, .list :: bs, b ++ ']' :: r⟩ = .ok ⟨.next, bs, r⟩ := by
  rw [step, skipSpaces_blank_cons hb rfl]
  rfl

theorem step_closeObject :
    step ⟨.next, .object :: bs, b ++ '\x7d' :: r⟩ = .ok ⟨.next, bs, r⟩ := by
  rw [step, skipSpaces_blank_cons hb rfl]
  rfl

theorem step_nextItem :
    step ⟨.next, .list :: bs, b ++ ',' :: r⟩ = .ok ⟨.value, .list :: bs, r⟩ := by
  rw [step, skipSpaces_blank_cons hb rfl]
  rfl

theorem step_nextKey :
    step ⟨.next, .object :: bs, b ++ ',' :: r⟩ = .ok ⟨.key, .object :: bs, r⟩ := by
  rw [step, skipSpaces_blank_cons hb rfl]
  rfl

theorem step_key {k : String} {kt b' : List Char} (hk : SpellsChars k.toList kt)
    (hb' : Blank b') :
    step ⟨.key, bs, b ++ '"' :: (kt ++ '"' :: (b' ++ ':' :: r))⟩ = .ok ⟨.value, bs, r⟩ := by
  simp [step, skipSpaces_blank_cons (c := '"') hb rfl, hk.skipChars,
    skipSpaces_blank_cons (c := ':') hb' rfl]

end

/-! ## Values -/

theorem skipAtom_numeral {n : Numeral} {c : Char} {t r : List Char} (h : SpellsNumeral n (c :: t))
    (hr : EndsNumeral r) : skipAtom c (t ++ r) = .ok r := by
  have hread := h.readNumeral .badNumeral hr
  rw [List.cons_append] at hread
  have hstarts := h.starts
  have hne {d : Char} (hd : startsNumeral d = false) : c ≠ d := startsNumeral_ne hstarts hd
  rw [skipAtom]
  · simp [hstarts, hread]
  all_goals exact hne (by decide)

/-- How many steps the texts of a part take, whatever brackets are open around it. -/
def Skips : Part → List Char → Prop
  | .value _, t => ∃ n ≤ 2 * t.length, ∀ bs b r, Blank b → EndsNumeral r →
      Takes n ⟨.value, bs, b ++ (t ++ r)⟩ ⟨.next, bs, r⟩
  | .items _, t => ∃ n ≤ 2 * t.length + 1, ∀ bs r,
      Takes n ⟨.value, .list :: bs, t ++ ']' :: r⟩ ⟨.next, bs, r⟩ ∧
        Takes (n + 1) ⟨.first, .list :: bs, t ++ ']' :: r⟩ ⟨.next, bs, r⟩
  | .afterItem _, t => ∃ n ≤ 2 * t.length + 1, ∀ bs r,
      Takes n ⟨.next, .list :: bs, t ++ ']' :: r⟩ ⟨.next, bs, r⟩
  | .members _, t => ∃ n ≤ 2 * t.length + 1, ∀ bs r,
      Takes n ⟨.key, .object :: bs, t ++ '\x7d' :: r⟩ ⟨.next, bs, r⟩ ∧
        Takes (n + 1) ⟨.first, .object :: bs, t ++ '\x7d' :: r⟩ ⟨.next, bs, r⟩
  | .afterMember _, t => ∃ n ≤ 2 * t.length + 1, ∀ bs r,
      Takes n ⟨.next, .object :: bs, t ++ '\x7d' :: r⟩ ⟨.next, bs, r⟩

/-- A value that is not nested takes one step. -/
theorem skips_atom {v : Value} {c : Char} {t : List Char} (hspace : isSpace c = false)
    (hlist : c ≠ '[') (hobject : c ≠ '\x7b')
    (hatom : ∀ r, EndsNumeral r → skipAtom c (t ++ r) = .ok r) : Skips (.value v) (c :: t) := by
  refine ⟨1, ?_, ?_⟩
  · rw [List.length_cons]
    omega
  · intro bs b r hb hr
    exact takes_one (step_atom hb bs r hspace hlist hobject (hatom r hr))

/-- A nested value takes two steps for each of its characters at most. -/
theorem skips_nested {v : Value} {c : Char} {t : List Char} {n : Nat} (hn : n ≤ 2 * t.length)
    (htakes : ∀ bs b r, Blank b → Takes (n + 1) ⟨.value, bs, b ++ c :: (t ++ r)⟩ ⟨.next, bs, r⟩) :
    Skips (.value v) (c :: t) := by
  refine ⟨n + 1, ?_, ?_⟩
  · rw [List.length_cons]
    omega
  · intro bs b r hb _
    exact htakes bs b r hb

theorem skips_items {v : Value} {vs : List Value} {b t r : List Char} (hb : Blank b)
    (hv : Spells (.value v) t) (hr : Spells (.afterItem vs) r) (hvalue : Skips (.value v) t)
    (hafter : Skips (.afterItem vs) r) : Skips (.items (v :: vs)) (b ++ (t ++ r)) := by
  obtain ⟨n, hn, hvalue⟩ := hvalue
  obtain ⟨n', hn', hafter⟩ := hafter
  refine ⟨n + n', ?_, ?_⟩
  · simp only [List.length_append]
    omega
  · intro bs s
    have hends := hr.endsNumeral_afterItem s
    have hrest : ∀ b, Blank b →
        Takes (n + n') ⟨.value, .list :: bs, b ++ (t ++ (r ++ ']' :: s))⟩ ⟨.next, bs, s⟩ :=
      fun b hb => (hvalue _ b _ hb hends).trans (hafter bs s)
    simp only [List.append_assoc]
    refine ⟨hrest b hb, ?_⟩
    obtain ⟨c, t', rfl, hopens, hspace⟩ := hv.eq_cons
    exact takes_succ (step_firstItem hb bs _ hspace hopens.ne_bracket) (hrest [] blank_nil)

theorem skips_members {k : String} {v : Value} {ms : List (String × Value)}
    {b kt b₁ b₂ t r : List Char} (hb : Blank b) (hk : SpellsChars k.toList kt) (hb₁ : Blank b₁)
    (hb₂ : Blank b₂) (hr : Spells (.afterMember ms) r) (hvalue : Skips (.value v) t)
    (hafter : Skips (.afterMember ms) r) :
    Skips (.members ((k, v) :: ms))
      (b ++ '"' :: (kt ++ '"' :: (b₁ ++ ':' :: (b₂ ++ (t ++ r))))) := by
  obtain ⟨n, hn, hvalue⟩ := hvalue
  obtain ⟨n', hn', hafter⟩ := hafter
  refine ⟨n + n' + 1, ?_, ?_⟩
  · simp only [List.length_append, List.length_cons]
    omega
  · intro bs s
    have hends := hr.endsNumeral_afterMember s
    have hrest := (hvalue (.object :: bs) b₂ _ hb₂ hends).trans (hafter bs s)
    simp only [List.append_assoc, List.cons_append]
    have hkey {b : List Char} (hb : Blank b) :=
      takes_succ (step_key hb (.object :: bs) _ hk hb₁) hrest
    exact ⟨hkey hb, takes_succ (step_firstKey hb bs _) (hkey blank_nil)⟩

end Skipping

open Skipping in
/-- Every part is skipped. -/
theorem Spells.skips {p : Part} {t : List Char} (h : Spells p t) : Skips p t := by
  induction h with
  | nullWord | trueWord | falseWord =>
    exact skips_atom (by decide) (by decide) (by decide) fun r _ => rfl
  | @number n t hn =>
    obtain ⟨c, t, rfl, hc, hspace⟩ := hn.eq_cons
    have hlist : c ≠ '[' := startsNumeral_ne hc (by decide)
    have hobject : c ≠ '\x7b' := startsNumeral_ne hc (by decide)
    exact skips_atom hspace hlist hobject fun r hr => skipAtom_numeral hn hr
  | text hs =>
    refine skips_atom (by decide) (by decide) (by decide) fun r _ => ?_
    simp [skipAtom, hs.skipChars]
  | @emptyList b hb =>
    refine skips_nested (n := 1) (by simp; omega) fun bs b₀ r hb₀ => ?_
    rw [List.append_assoc]
    exact takes_succ (step_openList hb₀ bs _) (takes_one (step_emptyList hb bs r))
  | @list vs t _ ih =>
    obtain ⟨n, hn, htakes⟩ := ih
    refine skips_nested (n := n + 1) (by simp; omega) fun bs b r hb => ?_
    rw [List.append_assoc]
    exact takes_succ (step_openList hb bs _) (htakes bs r).2
  | @emptyObject b hb =>
    refine skips_nested (n := 1) (by simp; omega) fun bs b₀ r hb₀ => ?_
    rw [List.append_assoc]
    exact takes_succ (step_openObject hb₀ bs _) (takes_one (step_emptyObject hb bs r))
  | @object ms t _ ih =>
    obtain ⟨n, hn, htakes⟩ := ih
    refine skips_nested (n := n + 1) (by simp; omega) fun bs b r hb => ?_
    rw [List.append_assoc]
    exact takes_succ (step_openObject hb bs _) (htakes bs r).2
  | item hb hv hr ihv ihr => exact skips_items hb hv hr ihv ihr
  | @lastItem b hb =>
    exact ⟨1, by omega, fun bs r => takes_one (step_closeList hb bs r)⟩
  | @nextItem vs b t hb _ ih =>
    obtain ⟨n, hn, htakes⟩ := ih
    refine ⟨n + 1, ?_, ?_⟩
    · simp only [List.length_append, List.length_cons]
      omega
    · intro bs r
      rw [List.append_assoc]
      exact takes_succ (step_nextItem hb bs _) (htakes bs r).1
  | member hb hk hb₁ hb₂ _ hr ihv ihr => exact skips_members hb hk hb₁ hb₂ hr ihv ihr
  | @lastMember b hb =>
    exact ⟨1, by omega, fun bs r => takes_one (step_closeObject hb bs r)⟩
  | @nextMember ms b t hb _ ih =>
    obtain ⟨n, hn, htakes⟩ := ih
    refine ⟨n + 1, ?_, ?_⟩
    · simp only [List.length_append, List.length_cons]
      omega
    · intro bs r
      rw [List.append_assoc]
      exact takes_succ (step_nextKey hb bs _) (htakes bs r).1

/-- A value is skipped to its end, and no further. -/
theorem Spells.skipValue {v : Value} {t b r : List Char} (h : Spells (.value v) t) (hb : Blank b)
    (hr : EndsNumeral r) : skipValue (b ++ (t ++ r)) = .ok r := by
  obtain ⟨n, hn, htakes⟩ := h.skips
  have hlength : 2 * (b ++ (t ++ r)).length + 2 =
      n + (2 * (b.length + r.length) + (2 * t.length - n) + 1 + 1) := by
    simp only [List.length_append]
    omega
  rw [Json.skipValue, hlength, htakes [] b r hb hr]
  rfl

end Metering.Json
