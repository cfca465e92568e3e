import RouteDispatch.Route.Version
import RouteDispatch.Router.Basic

/-!
# Route tables

A table is compiled from definitions and plugins, and does not change afterwards.  Each definition
is offered to the plugins in order and then checked; the first fault refuses the whole table.  The
compiler keeps a log of the plugins' notes and of its own reports, which is there in either case.
-/

namespace RouteDispatch

structure RouteTable where
  routes : List Route
  router : Router

/-- A computation of the table compiler: it may refuse the table, and it writes a log. -/
abbrev Compiler := ExceptT BuildError (StateM (List Entry))

namespace Compiler

def write (entries : List Entry) : Compiler Unit :=
  modify fun log => log ++ entries

/-- Refuses the table if the value is an error. -/
def check {α : Type} : Except BuildError α → Compiler α
  | .ok a => pure a
  | .error e => throw e

end Compiler

/-- The refusal of a plugin that declines a route but added parameters to it. -/
def declinedAddition (plugin route : String) : BuildError :=
  .plugin plugin route "declined the route but added parameters"

/-- Offers a route to one plugin.  The parameters behind those that were there before are the slots
of the plugin. -/
def attachOne (state : Signature × List Attachment) (plugin : Plugin) :
    Compiler (Signature × List Attachment) := do
  let before := state.1.params.length
  let offer := plugin.bind state.1
  Compiler.write (offer.notes.map fun content => .remark (.note content))
  let (signature, answer) ← Compiler.check offer.answer
  let after := signature.params.length
  match answer with
  | some context =>
    let slots := (List.range (after - before)).map (· + before)
    pure (signature, state.2 ++ [⟨plugin, context, slots⟩])
  | none =>
    if after ≠ before then throw (declinedAddition plugin.name signature.name)
    else pure (signature, state.2)

/-- The first name that occurs a second time. -/
def firstRepeated : List String → List String → Option String
  | _, [] => none
  | seen, name :: rest =>
    if seen.contains name then some name else firstRepeated (name :: seen) rest

/-- Checks the final signature of a route and links its path to its parameters. -/
def Signature.compile (s : Signature) (attachments : List Attachment) (handler : Handler) :
    Except BuildError Route := do
  match firstRepeated [] (s.params.map ParamSpec.name) with
  | some param => throw (.duplicateParam s.name param)
  | none => pure ()
  match handler.check s.params with
  | .error reason => throw (.handlerSignature s.name reason)
  | .ok () => pure ()
  let segments ← Template.parse s.name s.path s.params
  pure
    { name := s.name, method := s.method, version := s.version, template := s.path
      equivalence := Template.equivalencePath segments, segments, params := s.params
      attachments, handler }

def Definition.compile (plugins : List Plugin) (d : Definition) : Compiler Route := do
  let version ← Compiler.check (versionOf d.name)
  let signature : Signature := ⟨d.name, d.method, version, d.path, d.params⟩
  let (signature, attachments) ← plugins.foldlM attachOne (signature, [])
  Compiler.check (signature.compile attachments d.handler)

namespace RouteTable

/-- Adds a compiled route behind others, none of which may have its name, or its method, equivalence
path and version. -/
def addRoute (routes : List Route) (r : Route) : Except BuildError (List Route) :=
  if routes.any fun other => other.name == r.name then .error (.duplicateName r.name)
  else
    match routes.find? fun other =>
      other.method == r.method && other.equivalence == r.equivalence
        && other.version == r.version with
    | some first =>
      .error (.duplicateRoute r.method r.equivalence r.version first.name r.name)
    | none => .ok (routes ++ [r])

def addDefinition (plugins : List Plugin) (routes : List Route) (d : Definition) :
    Compiler (List Route) := do
  let route ← d.compile plugins
  let routes ← Compiler.check (addRoute routes route)
  Compiler.write [.trace (.routeCompiled route.name route.method route.template route.version
    route.attachments.length)]
  pure routes

def compile (plugins : List Plugin) (definitions : List Definition) : Compiler RouteTable := do
  let routes ← definitions.foldlM (addDefinition plugins) []
  let router ← Compiler.check (Router.build routes)
  Compiler.write [.trace (.tableBuilt routes.length plugins.length)]
  pure ⟨routes, router⟩

/-- Compiles a table; the log comes first. -/
def build (plugins : List Plugin) (definitions : List Definition) :
    List Entry × Except BuildError RouteTable :=
  let (result, log) := ((compile plugins definitions).run).run []
  (log, result)

def empty : RouteTable := ⟨[], ⟨[]⟩⟩

def route? (table : RouteTable) (name : String) : Option Route :=
  table.routes.find? fun r => r.name == name

def position? (table : RouteTable) (name : String) : Option Nat :=
  table.routes.findIdx? fun r => r.name == name

def find (table : RouteTable) (method path : String) (version : Nat) :
    Except CallError RouteMatch :=
  match table.router.find method path version with
  | some m => .ok m
  | none => .error (.noRoute method path version)

def inspect (table : RouteTable) : String :=
  Text.listText (table.routes.map fun r => Text.quoted r.name)

def inspectSource (plugins : List Plugin) (definitions : List Definition) : String :=
  Text.record "RouteTableBuilder"
    [("plugins", Text.listText (plugins.map fun p => Text.quoted p.name)),
      ("definitions", Text.listText (definitions.map Definition.inspect))]

end RouteTable
end RouteDispatch
