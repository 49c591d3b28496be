/-!
# Short names of error types

The path of a failure that an error caused is the name of its type with the modules it is in, so
that errors of the same name stay apart, but without arguments and without further bounds.
-/

namespace Metering

/-- The name of a type without a leading `dyn`, up to the first angle bracket or space. -/
def shortTypeName (full : String) : String :=
  let name := match full.toList with
    | 'd' :: 'y' :: 'n' :: ' ' :: rest => rest
    | name => name
  String.ofList (name.takeWhile fun c => c != '<' && c != ' ')

/-- An error that an operation ended with. -/
structure Failure where
  /-- The full name of the type of the error. -/
  typeName : String
  /-- The error in words. -/
  text : String
  deriving DecidableEq, Inhabited

namespace Failure

/-- The path that the error gives. -/
def path (f : Failure) : String := shortTypeName f.typeName

/-- What an executor says that wraps the error of its closure. -/
def wrappedMessage : String := "metered operation failed"

end Failure
end Metering
