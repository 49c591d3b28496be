import Mathlib.Data.List.TakeWhile
import Metering.TypeName
import Metering.Proofs.Text

/-!
# Proofs: what is left of the name of a type

The short name is a part of the full one. What stands in front of it is at most `dyn`, and what
follows it starts with an angle bracket or a space.
-/

namespace Metering

/-- Whether a name is that of a type without a leading `dyn`. -/
inductive IsBareName : String → String → Prop
  /-- The name stands behind it. -/
  | dyn (bare : String) : IsBareName ("dyn " ++ bare) bare
  /-- There is none. -/
  | plain {full : String} : ¬ "dyn ".toList <+: full.toList → IsBareName full full

/-- Whether a name is the short one of a type: its name without a leading `dyn`, up to the first
angle bracket or space if there is one. -/
def IsShortName (full short : String) : Prop :=
  ∃ rest : String, IsBareName full (short ++ rest) ∧ '<' ∉ short.toList ∧ ' ' ∉ short.toList ∧
    ∀ c ∈ rest.toList.head?, c = '<' ∨ c = ' '

/-- Whether a character may stand in a short name. -/
def isNamePart (c : Char) : Bool := c != '<' && c != ' '

theorem isNamePart_iff {c : Char} : isNamePart c = true ↔ c ≠ '<' ∧ c ≠ ' ' := by
  rw [isNamePart, Bool.and_eq_true, bne_iff_ne, bne_iff_ne]

theorem exists_isBareName (full : String) : ∃ bare, IsBareName full bare := by
  by_cases h : "dyn ".toList <+: full.toList
  · obtain ⟨bare, hfull⟩ := h
    obtain rfl : "dyn " ++ String.ofList bare = full := by
      simpa [← String.toList_inj] using hfull
    exact ⟨_, .dyn _⟩
  · exact ⟨full, .plain h⟩

theorem IsBareName.shortTypeName_eq {full bare : String} (h : IsBareName full bare) :
    shortTypeName full = String.ofList (bare.toList.takeWhile isNamePart) := by
  unfold shortTypeName
  cases h with
  | dyn =>
    rw [String.toList_append]
    rfl
  | plain hplain =>
    split
    · next rest hfull => exact absurd ⟨rest, hfull.symm⟩ hplain
    · rfl

theorem IsShortName.shortTypeName_eq {full short : String} (h : IsShortName full short) :
    shortTypeName full = short := by
  obtain ⟨rest, hbare, hangle, hspace, hrest⟩ := h
  have hshort : ∀ c ∈ short.toList, isNamePart c = true := fun c hc =>
    isNamePart_iff.mpr ⟨ne_of_mem_of_not_mem hc hangle, ne_of_mem_of_not_mem hc hspace⟩
  have hstops : ∀ c ∈ rest.toList.head?, isNamePart c = false := by
    intro c hc
    rcases hrest c hc with rfl | rfl <;> rfl
  rw [hbare.shortTypeName_eq, String.toList_append, takeWhile_append_of_stops hshort hstops,
    String.ofList_toList]

theorem isShortName_shortTypeName (full : String) : IsShortName full (shortTypeName full) := by
  obtain ⟨bare, hbare⟩ := exists_isBareName full
  have hshort : ∀ c ∈ bare.toList.takeWhile isNamePart, c ≠ '<' ∧ c ≠ ' ' := fun c hc =>
    isNamePart_iff.mp (List.mem_takeWhile_imp hc)
  rw [hbare.shortTypeName_eq]
  refine ⟨String.ofList (bare.toList.dropWhile isNamePart), ?_, ?_, ?_, ?_⟩
  · rwa [← String.ofList_append, List.takeWhile_append_dropWhile, String.ofList_toList]
  · rw [String.toList_ofList]
    exact fun hangle => (hshort '<' hangle).1 rfl
  · rw [String.toList_ofList]
    exact fun hspace => (hshort ' ' hspace).2 rfl
  · rw [String.toList_ofList]
    intro c hc
    have hstop := List.head?_dropWhile_not isNamePart bare.toList
    rw [Option.mem_def.mp hc] at hstop
    simpa [isNamePart, Decidable.or_iff_not_imp_left] using hstop

/-- Each type has one short name, which is the one that is computed. -/
theorem isShortName_iff {full short : String} :
    IsShortName full short ↔ shortTypeName full = short := by
  constructor
  · exact IsShortName.shortTypeName_eq
  · rintro rfl
    exact isShortName_shortTypeName full

example : shortTypeName "dyn a::Fault<u8> + core::marker::Send" = "a::Fault" := by decide

end Metering
