/-!
# Outcomes

How an operation ended. A success may name the path it took; a rejection and a failure always have
one, and a failure may also carry a message.
-/

namespace Metering

/-- How an operation ended, if it has. -/
inductive Outcome where
  /-- The operation has not ended. -/
  | unset
  /-- The operation succeeded. -/
  | ok (path : Option String)
  /-- The operation ended in an expected way that is not success. -/
  | reject (path : String)
  /-- The operation failed. -/
  | fail (path : String) (message : Option String)
  deriving DecidableEq, Inhabited

namespace Outcome

/-- Whether the operation has ended. -/
def isResolved : Outcome → Bool
  | .unset => false
  | _ => true

/-- Whether the operation succeeded. -/
def isOk : Outcome → Bool
  | .ok _ => true
  | _ => false

/-- Whether the operation was rejected. -/
def isReject : Outcome → Bool
  | .reject _ => true
  | _ => false

/-- Whether the operation failed. -/
def isFail : Outcome → Bool
  | .fail .. => true
  | _ => false

/-- The path on which the operation ended, if there is one. -/
def path : Outcome → Option String
  | .unset => none
  | .ok path => path
  | .reject path => some path
  | .fail path _ => some path

/-- The message of a failure, if it has one. -/
def failMessage : Outcome → Option String
  | .fail _ message => message
  | _ => none

end Outcome
end Metering
