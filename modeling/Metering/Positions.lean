import Metering.Word

/-!
# Positions

The executions of an operation are numbered from one. Operations are told apart by a key, the
category and, behind a slash, the operation.
-/

namespace Metering

/-- The key under which the executions of an operation are counted. -/
def positionKey (category : String) (operation : Option String) : String :=
  match operation with
  | some operation => category ++ "/" ++ operation
  | none => category

/-- How many positions have been given out for each key. -/
structure Positions where
  /-- The keys with their last positions. -/
  counts : List (String × UInt64) := []
  deriving DecidableEq, Inhabited

namespace Positions

/-- The last position given out for a key; zero if there is none. -/
def last (p : Positions) (key : String) : UInt64 := (p.counts.lookup key).getD 0

/-- Sets the last position of a key. -/
def set (key : String) (n : UInt64) : List (String × UInt64) → List (String × UInt64)
  | [] => [(key, n)]
  | (k, m) :: cs => if k = key then (k, n) :: cs else (k, m) :: set key n cs

/-- Gives out the next position of an operation. -/
def next (p : Positions) (category : String) (operation : Option String) : UInt64 × Positions :=
  let key := positionKey category operation
  let n := Word.satAdd (p.last key) 1
  (n, ⟨set key n p.counts⟩)

end Positions
end Metering
