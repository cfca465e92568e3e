import RouteDispatch.Handler
import RouteDispatch.Plugin

/-!
# Routes

A definition is what is registered for one handler.  A route is what the table compiler makes of it:
an endpoint, the plugins attached to it, and the handler.
-/

namespace RouteDispatch

structure Definition where
  name : String
  method : String
  path : String
  params : List ParamSpec
  handler : Handler

def Definition.inspect (d : Definition) : String :=
  Text.openRecord "RouteDefinition"
    [("name", Text.quoted d.name), ("method", d.method), ("path", Text.quoted d.path),
      ("params", Text.listText (d.params.map ParamSpec.inspect))]

structure Route extends Endpoint where
  attachments : List Attachment
  handler : Handler

def Route.inspect (r : Route) : String :=
  Text.openRecord "Route"
    [("name", Text.quoted r.name), ("method", r.method), ("version", toString r.version),
      ("path", Text.quoted r.template), ("plugins", toString r.attachments.length)]

end RouteDispatch
