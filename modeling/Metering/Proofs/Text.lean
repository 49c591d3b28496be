import Mathlib.Data.List.Basic

/-!
# Proofs: the first of a character

A text is split at the first place where a character stands. In front of that place the character
does not occur, so the two parts are known from the whole.
-/

namespace Metering

theorem takeWhile_append_of_stops {α : Type} {p : α → Bool} {front rest : List α}
    (hfront : ∀ x ∈ front, p x = true) (hrest : ∀ x ∈ rest.head?, p x = false) :
    (front ++ rest).takeWhile p = front := by
  rw [List.takeWhile_append_of_pos hfront]
  cases rest with
  | nil => exact List.append_nil front
  | cons x rest => rw [List.takeWhile_cons_of_neg (by simp [hrest x rfl]), List.append_nil]

section

variable (front r : List Char) (c : Char) (hfront : c ∉ front)
include hfront

theorem forall_mem_bne : ∀ d ∈ front, (d != c) = true := fun _ hd =>
  bne_iff_ne.mpr (ne_of_mem_of_not_mem hd hfront)

theorem takeWhile_append_cons : (front ++ c :: r).takeWhile (· != c) = front :=
  takeWhile_append_of_stops (forall_mem_bne front c hfront) (by simp)

theorem dropWhile_append_cons : (front ++ c :: r).dropWhile (· != c) = c :: r := by
  rw [List.dropWhile_append_of_pos (forall_mem_bne front c hfront),
    List.dropWhile_cons_of_neg (by simp)]

end

/-- Texts that end with the same separator and parts without it are equal in both parts. -/
theorem append_separator_inj {p q r s : List Char} {c : Char} (hr : c ∉ r) (hs : c ∉ s)
    (h : p ++ c :: r = q ++ c :: s) : p = q ∧ r = s := by
  have hreverse : r.reverse ++ c :: p.reverse = s.reverse ++ c :: q.reverse := by
    simpa using congrArg List.reverse h
  have hfront := congrArg (List.takeWhile (· != c)) hreverse
  have hback := congrArg (List.dropWhile (· != c)) hreverse
  rw [takeWhile_append_cons _ _ c (by simpa using hr),
    takeWhile_append_cons _ _ c (by simpa using hs)] at hfront
  rw [dropWhile_append_cons _ _ c (by simpa using hr),
    dropWhile_append_cons _ _ c (by simpa using hs)] at hback
  exact ⟨List.reverse_inj.mp (List.cons.inj hback).2, List.reverse_inj.mp hfront⟩

end Metering
