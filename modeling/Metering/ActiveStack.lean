/-!
# Active meters

A thread knows the meters that were started on it and have not been resolved, by their identities.
The innermost one is the parent of a meter that is created without another.
-/

namespace Metering

/-- The identities of the active meters of a thread, the one that became active last in front. -/
structure ActiveStack where
  /-- The identities. -/
  ids : List String := []
  deriving DecidableEq, Inhabited

namespace ActiveStack

/-- The identity of the innermost active meter. -/
def current (a : ActiveStack) : Option String := a.ids.head?

/-- Makes a meter active. -/
def push (a : ActiveStack) (id : String) : ActiveStack := ⟨id :: a.ids⟩

/-- Takes back the last activation of a meter, wherever it stands. -/
def remove (a : ActiveStack) (id : String) : ActiveStack := ⟨a.ids.erase id⟩

end ActiveStack
end Metering
