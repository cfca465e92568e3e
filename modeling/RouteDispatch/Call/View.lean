import RouteDispatch.Args
import RouteDispatch.Call.Stage
import RouteDispatch.Route.Endpoint

/-!
# Views of a call

What plugins, handlers' listeners and continuations can see of a call.  The endpoint and the path
parameters are there once a route has been matched; the number is there once the listener gave one.
-/

namespace RouteDispatch

/-- A path capture: the depth of the segment and the text it took from the path. -/
structure Capture where
  depth : Nat
  text : String
  deriving DecidableEq, Repr

/-- The visible state of a call. -/
structure CallView where
  id : Nat := 0
  method : String
  path : String
  version : Nat
  endpoint : Option Endpoint := none
  pathParams : List (String × String) := []
  stage : Stage := .received
  transport : Option Datum := none

namespace CallView

def routeName (v : CallView) : Option String :=
  v.endpoint.map Endpoint.name

/-- The raw text of the path capture of a name. -/
def pathParam? (v : CallView) (name : String) : Option String :=
  (v.pathParams.find? fun p => p.1 == name).map Prod.snd

def inspect (v : CallView) : String :=
  Text.openRecord "RouteContext"
    [("call_id", toString v.id), ("method", v.method), ("path", Text.quoted v.path),
      ("version", toString v.version),
      ("route", Text.optionText (v.routeName.map Text.quoted)), ("stage", v.stage.inspect)]

end CallView

/-- The names and texts of the captures of a matched path. -/
def namedCaptures (segments : List Segment) (captures : List Capture) : List (String × String) :=
  captures.filterMap fun c =>
    match segments[c.depth]? with
    | some (Segment.capture name _) => some (name, c.text)
    | _ => none

end RouteDispatch
