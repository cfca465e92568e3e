import RouteDispatch.Route.Template

/-!
# Endpoints

What is known of a compiled route without its code: its name, method, version and path, and the
parameters of its handler in their final form.
-/

namespace RouteDispatch

/-- The description of a compiled route. -/
structure Endpoint where
  name : String
  method : String
  version : Nat
  template : String
  equivalence : String
  segments : List Segment
  params : List ParamSpec
  deriving DecidableEq

namespace Endpoint

def param? (e : Endpoint) (name : String) : Option ParamSpec :=
  e.params.find? fun spec => spec.name == name

/-- Whether a request for the method and path at a version may be answered by the endpoint. -/
def answers (e : Endpoint) (method path : String) (version : Nat) : Bool :=
  e.method == method && e.version ≤ version && Template.accepts e.segments path

end Endpoint
end RouteDispatch
