import RouteDispatch.Text.Record

/-!
# Stages of a call

A call is received, matched to a route and bound to its arguments; it passes the plugins of the
route on its way to the handler and again on its way back; and it ends by succeeding or failing.
-/

namespace RouteDispatch

inductive Stage where
  | received
  | matched
  | bound
  | pluginCall (index : Nat)
  | handler
  | pluginResult (index : Nat)
  | succeeded
  | failed
  deriving DecidableEq, Repr

namespace Stage

def isTerminal : Stage → Bool
  | .succeeded | .failed => true
  | _ => false

/-- The last stage of a call with an outcome. -/
def ofOutcome {ε α : Type} : Except ε α → Stage
  | .ok _ => .succeeded
  | .error _ => .failed

def inspect : Stage → String
  | .received => "Received"
  | .matched => "Matched"
  | .bound => "ParameterBound"
  | .pluginCall i => Text.wrapped "PluginCall" (toString i)
  | .handler => "HandlerExecuting"
  | .pluginResult i => Text.wrapped "PluginResult" (toString i)
  | .succeeded => "Succeeded"
  | .failed => "Failed"

end Stage

/-- A point at which a plugin decides how a call goes on: before the handler or after it, by the
plugin's position. -/
inductive Point where
  | call (index : Nat)
  | result (index : Nat)
  deriving DecidableEq, Repr

namespace Point

def index : Point → Nat
  | .call i => i
  | .result i => i

/-- The stage of a call that has come to the point. -/
def stage : Point → Stage
  | .call i => .pluginCall i
  | .result i => .pluginResult i

/-- The diagnostic record of the continuation held at the point. -/
def inspect (p : Point) : String :=
  let name := match p with
    | .call _ => "CallNext"
    | .result _ => "ResultNext"
  Text.record name [("stage", toString p.index), ("pending", Text.boolText true)]

end Point
end RouteDispatch
