/-!
# Fixed numbers of words

The metrics of a sample come in groups of a fixed size. The size is part of the type.
-/

namespace Metering

/-- A fixed number of words. -/
structure Words (n : Nat) where
  /-- The words. -/
  toList : List UInt64
  /-- There are as many of them as the type says. -/
  length_toList : toList.length = n
  deriving DecidableEq

namespace Words

/-- Words that are all zero. -/
def zero (n : Nat) : Words n := ⟨List.replicate n 0, List.length_replicate⟩

/-- Whether all words are zero. -/
def isZero {n : Nat} (w : Words n) : Bool := w.toList.all (· == 0)

/-- No words. -/
def nil : Words 0 := ⟨[], rfl⟩

/-- Words with one more in front. -/
def cons {n : Nat} (x : UInt64) (w : Words n) : Words (n + 1) :=
  ⟨x :: w.toList, by simp [w.length_toList]⟩

instance {n : Nat} : Inhabited (Words n) := ⟨zero n⟩

end Words

end Metering
