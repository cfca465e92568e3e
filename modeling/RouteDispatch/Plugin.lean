import RouteDispatch.Task.Code

/-!
# Plugins

A plugin is offered every route while the table is compiled.  It may edit the signature of the route
and attach itself, or decline.  At call time the attached plugins of a route run in order before the
handler and again after it.
-/

namespace RouteDispatch

/-- What plugins see and may edit of a route that is being compiled. -/
structure Signature where
  name : String
  method : String
  version : Nat
  path : String
  params : List ParamSpec
  deriving DecidableEq

namespace Signature

/-- Appends a parameter; its position is the number of parameters before. -/
def addParam (s : Signature) (spec : ParamSpec) : Signature :=
  { s with params := s.params ++ [spec] }

def prependPath (s : Signature) (front : String) : Signature :=
  { s with path := Template.prepend front s.path }

end Signature

/-- What a plugin keeps about a route it is attached to. -/
abbrev PluginContext := Option Datum

def PluginContext.inspect (c : PluginContext) : String :=
  Text.record "PluginContext" [("present", Text.boolText c.isSome)]

/-- What a plugin is told about its attachment when it runs: its name, what it kept, and the
positions of the parameters that it added. -/
structure Binding where
  plugin : String
  context : PluginContext
  slots : List Nat

def Binding.inspect (b : Binding) : String :=
  Text.record "PluginBinding"
    [("plugin", Text.quoted b.plugin), ("context", PluginContext.inspect b.context),
      ("slots", Text.listText (b.slots.map toString))]

/-- How a plugin answered the offer of a route: it refused the table, or it gives the edited
signature back, with a context if it attaches itself. -/
structure Offer where
  notes : List Json
  answer : Except BuildError (Signature × Option PluginContext)

structure Plugin where
  name : String
  bind : Signature → Offer
  modifyCall : Binding → CallView → Args → Code .nothing
  modifyResult : Binding → CallView → Json → Code .nothing

namespace Plugin

/-- Attaches to every route without a change. -/
def bindAlways (s : Signature) : Offer :=
  ⟨[], .ok (s, some none)⟩

/-- Lets the call go on with the arguments it came with. -/
def passCall (_ : Binding) (_ : CallView) (args : Args) : Code .nothing :=
  .proceed (.args args) .skip

/-- Lets the call go on with the result it came with. -/
def passResult (_ : Binding) (_ : CallView) (result : Json) : Code .nothing :=
  .proceed (.result result) .skip

end Plugin

structure Attachment where
  plugin : Plugin
  context : PluginContext
  slots : List Nat

def Attachment.binding (a : Attachment) : Binding :=
  ⟨a.plugin.name, a.context, a.slots⟩

end RouteDispatch
