import RouteDispatch.Param.Value
import RouteDispatch.Text.Hash

/-!
# Declared parameters

A route declares its parameters in order.  Each has a name, a type, and the place where its value is
looked for: a capture of the path, the query sources of the request, or a plugin that writes it.
-/

namespace RouteDispatch

inductive ParamSource where
  | path
  | query
  | injected
  deriving DecidableEq, Repr

def ParamSource.keyword : ParamSource → String
  | .path => "path"
  | .query => "query"
  | .injected => "injected"

def ParamSource.inspect : ParamSource → String
  | .path => "Path"
  | .query => "Query"
  | .injected => "Injected"

structure ParamSpec where
  name : String
  type : ParamType
  source : ParamSource
  required : Bool := false
  default : ParamValue := .null
  description : String := ""
  deriving DecidableEq

namespace ParamSpec

/-- A parameter captured from the path, which is always there. -/
def path (name : String) (type : ParamType) : ParamSpec :=
  { name, type, source := .path, required := true }

/-- An optional parameter of the query sources. -/
def query (name : String) (type : ParamType) : ParamSpec :=
  { name, type, source := .query }

/-- A parameter that a plugin writes. -/
def injected (name : String) (type : ParamType) : ParamSpec :=
  { name, type, source := .injected }

/-- A new parameter of the given source; captures are required and all others optional. -/
def declare (name : String) (type : ParamType) : ParamSource → ParamSpec
  | .path => path name type
  | .query => query name type
  | .injected => injected name type

def nameHash (s : ParamSpec) : UInt64 :=
  Text.segmentHash s.name

def inspect (s : ParamSpec) : String :=
  Text.record "ParamSpec"
    [("name", Text.quoted s.name), ("name_hash", toString s.nameHash.toNat),
      ("ty", s.type.inspect), ("source", s.source.inspect),
      ("required", Text.boolText s.required), ("default", s.default.inspect),
      ("description", Text.quoted s.description)]

end ParamSpec
end RouteDispatch
