import Metering.Proofs.Identity

/-!
# Proofs: what positions count

Positions are counted under a text, the category and, behind a slash, the operation. A request gets
one more than the number of earlier requests with the same text, whatever else was requested in
between. The text does not always tell what was requested: a category with a slash in it reads like
a category and an operation, and both are then counted as one.
-/

namespace Metering.Positions

/-- What a position is requested for. -/
structure Request where
  /-- The category. -/
  category : String
  /-- The operation in it. -/
  operation : Option String
  deriving DecidableEq

/-- The text under which a request is counted. -/
def Request.key (r : Request) : String := positionKey r.category r.operation

/-- The positions after a request. -/
def after (p : Positions) (r : Request) : Positions := (p.next r.category r.operation).2

/-- The positions that are given out for requests, one after another. -/
def answers : Positions → List Request → List UInt64
  | _, [] => []
  | p, r :: rs => (p.next r.category r.operation).1 :: answers (p.after r) rs

variable {p : Positions} {r : Request} {rs : List Request}

theorem last_after (key : String) :
    ((p.after r).last key).toNat =
      min ((p.last key).toNat + if r.key == key then 1 else 0) (2 ^ 64 - 1) := by
  have hlt := (p.last key).toNat_lt
  have hnext : (p.after r).last key =
      if key = r.key then Word.satAdd (p.last key) 1 else p.last key :=
    last_next p r.category r.operation key
  rw [hnext]
  by_cases hkey : r.key = key
  · rw [if_pos hkey.symm, Word.toNat_satAdd, if_pos (beq_iff_eq.mpr hkey)]
    rfl
  · rw [if_neg (Ne.symm hkey), if_neg (mt beq_iff_eq.mp hkey)]
    omega

/-- Each request is counted once under its own text and not at all under any other one. -/
theorem last_foldl_after (p : Positions) (rs : List Request) (key : String) :
    ((rs.foldl after p).last key).toNat =
      min ((p.last key).toNat + rs.countP (·.key == key)) (2 ^ 64 - 1) := by
  induction rs generalizing p with
  | nil =>
    have hlt := (p.last key).toNat_lt
    simp only [List.foldl_nil, List.countP_nil]
    omega
  | cons r rs ih =>
    rw [List.foldl_cons, ih, last_after, List.countP_cons]
    omega

theorem getElem?_answers (k : Nat) :
    (p.answers rs)[k]? =
      rs[k]?.map fun r => (((rs.take k).foldl after p).next r.category r.operation).1 := by
  induction rs generalizing p k with
  | nil => rfl
  | cons r rs ih =>
    cases k with
    | zero => rfl
    | succ k => exact ih k

/-- The position of a request that comes after fewer others than a word can count. -/
theorem toNat_next_foldl (r : Request) (hrs : rs.length + 1 < 2 ^ 64) :
    (((rs.foldl after {}).next r.category r.operation).1).toNat =
      rs.countP (·.key == r.key) + 1 := by
  have hlast := last_foldl_after {} rs r.key
  have hnone : (({} : Positions).last r.key).toNat = 0 := rfl
  have hle : rs.countP (·.key == r.key) ≤ rs.length := List.countP_le_length
  show (Word.satAdd ((rs.foldl after {}).last r.key) 1).toNat = _
  rw [Word.toNat_satAdd, hlast, hnone, UInt64.toNat_one]
  omega

/-- Counting by text is counting by request where no other request has the same text. -/
theorem countP_key_eq_count_iff :
    rs.countP (·.key == r.key) = rs.count r ↔ ∀ r' ∈ rs, r'.key = r.key → r' = r := by
  constructor
  · intro h r' hr' hkey
    have hsublist : (rs.filter (· == r)).Sublist (rs.filter (·.key == r.key)) := by
      apply List.monotone_filter_right
      intro x hx
      rw [beq_iff_eq.mp hx, beq_self_eq_true]
    have hsame : rs.filter (· == r) = rs.filter (·.key == r.key) := by
      apply hsublist.eq_of_length
      rw [← List.countP_eq_length_filter, ← List.countP_eq_length_filter, h, List.count]
    have hmem : r' ∈ rs.filter (·.key == r.key) :=
      List.mem_filter.mpr ⟨hr', beq_iff_eq.mpr hkey⟩
    rw [← hsame] at hmem
    exact beq_iff_eq.mp (List.mem_filter.mp hmem).2
  · intro h
    apply List.countP_congr
    intro r' hr'
    rw [beq_iff_eq, beq_iff_eq]
    exact ⟨h r' hr', congrArg Request.key⟩

/-- Of fewer requests than a word can count, each gets one more than the number of earlier requests
with the same text. So the requests for one category and operation are numbered from one without a
gap exactly as long as nothing else with the same text is requested. -/
theorem positions_count_by_text (rs : List Request) (hrs : rs.length < 2 ^ 64) (k : Nat)
    (r : Request) (hr : rs[k]? = some r) :
    ∃ n, (answers {} rs)[k]? = some n ∧
      n.toNat = (rs.take k).countP (·.key == r.key) + 1 ∧
      (n.toNat = (rs.take k).count r + 1 ↔ ∀ r' ∈ rs.take k, r'.key = r.key → r' = r) := by
  have hk : k < rs.length := (List.getElem?_eq_some_iff.mp hr).1
  have hlength : (rs.take k).length + 1 < 2 ^ 64 := by
    rw [List.length_take]
    omega
  have hposition := toNat_next_foldl r hlength
  refine ⟨_, by rw [getElem?_answers, hr]; rfl, hposition, ?_⟩
  rw [hposition, Nat.add_right_cancel_iff]
  exact countP_key_eq_count_iff

/-- Other operations and other categories in between do not count. -/
theorem positions_count_by_text_between :
    ∃ n, (answers {} [⟨"c", none⟩, ⟨"c", some "o"⟩, ⟨"d", none⟩, ⟨"c", none⟩])[3]? = some n ∧
      n.toNat = 2 := by
  obtain ⟨n, hn, hcount, -⟩ := positions_count_by_text
    [⟨"c", none⟩, ⟨"c", some "o"⟩, ⟨"d", none⟩, ⟨"c", none⟩] (by decide) 3 ⟨"c", none⟩ rfl
  exact ⟨n, hn, hcount.trans (by decide)⟩

/-- Requests are not always counted by category and operation: a category with a slash in it is
given the second position though it is requested for the first time. -/
theorem not_counted_by_operation :
    ¬ ∀ (rs : List Request) (k : Nat) (r : Request), rs.length < 2 ^ 64 → rs[k]? = some r →
        (answers {} rs)[k]?.map UInt64.toNat = some ((rs.take k).count r + 1) := by
  intro h
  have hsecond := h [⟨"a", some "b"⟩, ⟨"a/b", none⟩] 1 ⟨"a/b", none⟩ (by decide) rfl
  revert hsecond
  decide

end Metering.Positions
