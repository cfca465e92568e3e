import RouteDispatch.Task.Cell

/-!
# Panics

Code that finds itself in a state that must not occur panics: it ends at once, and so does the code
that called it, up to a guard.  A guard turns a panic into the failure of a call.
-/

namespace RouteDispatch

/-- What a panic carries: the mark of a second resolution, a text, or something else. -/
inductive Panic where
  | alreadyResolved
  | text (message : String)
  | other
  deriving DecidableEq, Repr

namespace Panic

def message : Panic → String
  | .alreadyResolved => Cell.alreadyResolved
  | .text message => message
  | .other => "unknown panic payload"

/-- The failure that a captured panic becomes. -/
def failure (p : Panic) : CallError :=
  .internal ("panicked: " ++ p.message)

end Panic
end RouteDispatch
