import RouteDispatch.Args
import RouteDispatch.Task.Panic
import RouteDispatch.Trace

/-!
# Logs

All that happens is written to one log, in its order.  Foreign code leaves remarks.  The library
leaves its own reports, the wake-ups of polled tasks, and marks: what happens to a call without
being shown to anybody.  Foreign code can leave nothing but remarks, so that the rest of a log is
evidence of the course of a call, whatever the plugins and handlers are.
-/

namespace RouteDispatch

/-- What foreign code leaves in a log: a note of its own, or news of a call. -/
inductive Remark where
  | note (content : Json)
  | news (n : News)

/-- How a continuation came to its end: it let the call go on, it failed the call, it was dropped,
or it was lost when the code that held it panicked. -/
inductive Fate where
  | proceeded
  | aborted
  | dropped
  | lost
  deriving DecidableEq, Repr

/-- A piece of foreign code that is run for a call. -/
inductive Piece where
  | onStart
  | binder
  | plugin (point : Point)
  | deferred (point : Point)
  | handler
  | onEnd
  deriving DecidableEq, Repr

/-- What happens without being shown to a call, named by its position, or to a task. -/
inductive Mark where
  | started (call : Nat)
  | ended (call : Nat) (o : Outcome)
  /-- The handler of the call gets its arguments. -/
  | invoked (call : Nat) (args : Args)
  /-- The task of the call's handler comes to a value, which starts its way back. -/
  | returned (call : Nat)
  /-- The continuation of the call at a point comes to its end. -/
  | spent (call : Nat) (point : Point) (fate : Fate)
  /-- A panic leaves a piece of foreign code that was run for the call. -/
  | escaped (call : Nat) (piece : Piece) (p : Panic)
  /-- A second end of the call, or a second resolution of its caller's task, is refused. -/
  | refused (call : Nat)
  /-- Foreign code resolves a waiting task. -/
  | resolved (task : Nat)

inductive Entry where
  | remark (r : Remark)
  | trace (t : Trace)
  | woken (label : String)
  | mark (m : Mark)

end RouteDispatch
