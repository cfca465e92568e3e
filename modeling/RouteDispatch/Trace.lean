import RouteDispatch.Call.Stage
import RouteDispatch.Error
import RouteDispatch.Json.Basic

/-!
# Traces

The library reports what it does as it goes: which routes were compiled, which route a request met,
which stages a call entered, and which code ran for it.  A listener may report calls as well.  A
report as it is shown has a level, the part of the library that it is about, a message and fields.
-/

namespace RouteDispatch

structure Report where
  level : String
  target : String
  message : String
  fields : List (String × Json)

def Report.toJson (r : Report) : Json :=
  .ofMembers [("trace", .str r.level), ("target", .str r.target), ("message", .str r.message),
    ("fields", .ofMembers r.fields)]

/-- The field for a text that may be missing. -/
def Report.optionalField (name : String) : Option String → List (String × Json)
  | none => []
  | some s => [(name, .str s)]

/-- A call as the log names it: its position among all calls, and the number its listener gave. -/
structure CallRef where
  position : Nat
  id : Nat
  deriving DecidableEq, Repr

inductive Trace where
  | routeCompiled (name method template : String) (version plugins : Nat)
  | tableBuilt (routes plugins : Nat)
  | lookedUp (method path : String) (version : Nat) (found : Option String)
  | matched (call : CallRef) (route : String) (version : Nat)
  | entered (call : CallRef) (source target : Stage)
  | tableReplaced (routes : Nat)
  | pluginStarted (call : CallRef) (point : Point) (route plugin : String)
  | handlerStarted (call : CallRef) (route : String)
  | lateResult (call : CallRef) (route : String)
  | lateFailure (call : CallRef) (route : String) (error : CallError)
  | panicCaptured (message : String)
  deriving DecidableEq

namespace Trace

def level : Trace → String
  | .lookedUp .. | .entered .. => "TRACE"
  | .routeCompiled .. | .matched .. | .pluginStarted .. | .handlerStarted .. => "DEBUG"
  | .tableBuilt .. | .tableReplaced .. => "INFO"
  | .lateResult .. | .lateFailure .. => "WARN"
  | .panicCaptured _ => "ERROR"

/-- The part of the library that a report is about. -/
def target : Trace → String
  | .routeCompiled .. | .tableBuilt .. => "micro_rpc::route::table"
  | .lookedUp .. => "micro_rpc::router"
  | .matched .. | .entered .. | .tableReplaced .. => "micro_rpc::dispatch"
  | .pluginStarted .. | .handlerStarted .. | .lateResult .. | .lateFailure .. =>
    "micro_rpc::plugin::pipeline"
  | .panicCaptured _ => "micro_rpc::task::guard"

def message : Trace → String
  | .routeCompiled .. => "route compiled"
  | .tableBuilt .. => "route table built"
  | .lookedUp .. => "route lookup"
  | .matched .. => "route matched"
  | .entered .. => "call stage"
  | .tableReplaced _ => "replacing route table"
  | .pluginStarted _ (.call _) _ _ => "modify_call"
  | .pluginStarted _ (.result _) _ _ => "modify_result"
  | .handlerStarted .. => "invoking handler"
  | .lateResult .. => "call already completed, dropping late result"
  | .lateFailure .. => "call already completed, dropping late failure"
  | .panicCaptured _ => "captured panic in dispatch stage"

def fields : Trace → List (String × Json)
  | .routeCompiled name method template version plugins =>
    [("route", .str name), ("method", .str method), ("path", .str template),
      ("version", .nat version), ("plugins", .nat plugins)]
  | .tableBuilt routes plugins => [("routes", .nat routes), ("plugins", .nat plugins)]
  | .lookedUp method path version found =>
    [("method", .str method), ("path", .str path), ("version", .nat version)]
      ++ Report.optionalField "matched" found
  | .matched call route version =>
    [("call_id", .nat call.id), ("route", .str route), ("version", .nat version)]
  | .entered call source target =>
    [("call_id", .nat call.id), ("from", .str source.inspect), ("to", .str target.inspect)]
  | .tableReplaced routes => [("routes", .nat routes)]
  | .pluginStarted call _ route plugin =>
    [("call_id", .nat call.id), ("route", .str route), ("plugin", .str plugin)]
  | .handlerStarted call route => [("call_id", .nat call.id), ("route", .str route)]
  | .lateResult call route => [("call_id", .nat call.id), ("route", .str route)]
  | .lateFailure call route error =>
    [("call_id", .nat call.id), ("route", .str route), ("cause", .str error.message)]
  | .panicCaptured message => [("panic_message", .str message)]

def report (t : Trace) : Report :=
  ⟨t.level, t.target, t.message, t.fields⟩

end Trace

/-- What a listener reports of a call: that it started under a number, and how it ended. -/
inductive News where
  | started (id : Nat) (method path : String) (version : Nat)
  | succeeded (id : Nat) (route : Option String)
  | failed (id : Nat) (route : Option String) (error : CallError)
  deriving DecidableEq

namespace News

/-- How important news are: a failure is worse when the server is at fault. -/
def level : News → String
  | .started .. | .succeeded .. => "INFO"
  | .failed _ _ error => if error.isExpected then "WARN" else "ERROR"

def message : News → String
  | .started .. => "call started"
  | .succeeded .. => "call succeeded"
  | .failed _ _ error => if error.isExpected then "call failed" else "call failed unexpectedly"

def fields : News → List (String × Json)
  | .started id method path version =>
    [("call_id", .nat id), ("method", .str method), ("path", .str path), ("version", .nat version)]
  | .succeeded id route => ("call_id", .nat id) :: Report.optionalField "route" route
  | .failed id route error =>
    ("call_id", .nat id) :: Report.optionalField "route" route ++ [("cause", .str error.message)]

def report (n : News) : Report :=
  ⟨n.level, "micro_rpc::listener", n.message, n.fields⟩

end News
end RouteDispatch
