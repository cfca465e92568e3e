import RouteDispatch.Text.Quoted
import RouteDispatch.Text.Record

/-!
# Errors

A call fails with a `CallError`: one of four causes and a reason.  A route table that cannot be
compiled is refused with a `BuildError`.  The texts of both are fixed here, the message for clients
and the diagnostic record.
-/

namespace RouteDispatch

inductive Cause where
  | notFound
  | unauthorized
  | invalidState
  | internal
  deriving DecidableEq, Repr

/-- The words that a failure message starts with. -/
def Cause.words : Cause → String
  | .notFound => "not found"
  | .unauthorized => "unauthorized"
  | .invalidState => "invalid state"
  | .internal => "internal error"

def Cause.name : Cause → String
  | .notFound => "NotFound"
  | .unauthorized => "Unauthorized"
  | .invalidState => "InvalidState"
  | .internal => "Internal"

structure CallError where
  cause : Cause
  reason : String
  deriving DecidableEq, Repr

namespace CallError

/-- A failure for a request that names nothing that is there. -/
def notFound (reason : String) : CallError := ⟨.notFound, reason⟩

/-- A failure for a caller without the right to call. -/
def unauthorized (reason : String) : CallError := ⟨.unauthorized, reason⟩

/-- A failure for a request that cannot be served as it is. -/
def invalidState (reason : String) : CallError := ⟨.invalidState, reason⟩

/-- A failure that is the server's own fault. -/
def internal (reason : String) : CallError := ⟨.internal, reason⟩

def noRoute (method path : String) (version : Nat) : CallError :=
  notFound ("no route for " ++ method ++ " " ++ path ++ " at version " ++ toString version)

/-- Whether the client and not the server is at fault. -/
def isExpected (e : CallError) : Bool :=
  e.cause != .internal

def message (e : CallError) : String :=
  e.cause.words ++ ": " ++ e.reason

def inspect (e : CallError) : String :=
  Text.record e.cause.name [("reason", Text.quoted e.reason)]

end CallError

inductive BuildError where
  | duplicateRoute (method equivalence : String) (version : Nat) (first second : String)
  | invalidVersion (name suffix : String)
  | pathParamCount (route : String) (captures params : Nat)
  | undeclaredPathParam (route param : String)
  | duplicateParam (route param : String)
  | invalidPath (route path reason : String)
  | plugin (owner route reason : String)
  | handlerSignature (route reason : String)
  | duplicateName (name : String)
  deriving DecidableEq, Repr

namespace BuildError

def name : BuildError → String
  | .duplicateRoute .. => "DuplicateRoute"
  | .invalidVersion .. => "InvalidVersion"
  | .pathParamCount .. => "PathParamCountMismatch"
  | .undeclaredPathParam .. => "UndeclaredPathParam"
  | .duplicateParam .. => "DuplicateParam"
  | .invalidPath .. => "InvalidPath"
  | .plugin .. => "Plugin"
  | .handlerSignature .. => "HandlerSignature"
  | .duplicateName .. => "DuplicateName"

def message : BuildError → String
  | .duplicateRoute method equivalence version first second =>
    "duplicate route " ++ method ++ " " ++ equivalence ++ " at version " ++ toString version
      ++ ": '" ++ first ++ "' and '" ++ second ++ "'"
  | .invalidVersion name suffix =>
    "handler '" ++ name ++ "' has an invalid version suffix '" ++ suffix ++ "'"
  | .pathParamCount route captures params =>
    "route '" ++ route ++ "' has " ++ toString captures ++ " captured segments but "
      ++ toString params ++ " path parameters"
  | .undeclaredPathParam route param =>
    "route '" ++ route ++ "' captures ':" ++ param ++ "' which is not declared as a path parameter"
  | .duplicateParam route param =>
    "route '" ++ route ++ "' declares parameter '" ++ param ++ "' twice"
  | .invalidPath route path reason =>
    "invalid path template '" ++ path ++ "' for route '" ++ route ++ "': " ++ reason
  | .plugin owner route reason =>
    "plugin '" ++ owner ++ "' rejected route '" ++ route ++ "': " ++ reason
  | .handlerSignature route reason =>
    "handler of route '" ++ route ++ "' does not fit its parameters: " ++ reason
  | .duplicateName name => "route name '" ++ name ++ "' is registered twice"

def fields : BuildError → List (String × String)
  | .duplicateRoute method equivalence version first second =>
    [("method", method), ("equivalence_path", Text.quoted equivalence),
      ("version", toString version), ("first", Text.quoted first), ("second", Text.quoted second)]
  | .invalidVersion name suffix =>
    [("name", Text.quoted name), ("suffix", Text.quoted suffix)]
  | .pathParamCount route captures params =>
    [("route", Text.quoted route), ("captures", toString captures), ("params", toString params)]
  | .undeclaredPathParam route param =>
    [("route", Text.quoted route), ("param", Text.quoted param)]
  | .duplicateParam route param =>
    [("route", Text.quoted route), ("param", Text.quoted param)]
  | .invalidPath route path reason =>
    [("route", Text.quoted route), ("path", Text.quoted path), ("reason", Text.quoted reason)]
  | .plugin owner route reason =>
    [("plugin", Text.quoted owner), ("route", Text.quoted route), ("reason", Text.quoted reason)]
  | .handlerSignature route reason =>
    [("route", Text.quoted route), ("reason", Text.quoted reason)]
  | .duplicateName name => [("name", Text.quoted name)]

def inspect (e : BuildError) : String :=
  Text.record e.name e.fields

end BuildError
end RouteDispatch
