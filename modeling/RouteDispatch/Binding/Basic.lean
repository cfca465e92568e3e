import RouteDispatch.Args
import RouteDispatch.Binding.Parser
import RouteDispatch.Binding.Source

/-!
# Binding of parameters

The arguments of a call are made from the texts that the path captures took and from the query
sources.  Captures come first, in the order of the path; then the query parameters, in the order of
their declaration.  The first fault counts.  Injected parameters stay null until a plugin writes
them.
-/

namespace RouteDispatch

/-- A computation that may fail the call, or panic. -/
abbrev Binder := ExceptT CallError (Except Panic)

namespace Binder

def raise {α : Type} (p : Panic) : Binder α :=
  ExceptT.mk (.error p)

/-- Runs a parser; a text without a value fails the call. -/
def parse (parser : ParamParser) (type : ParamType) (raw : String) (fault : CallError) :
    Binder ParamValue := do
  match ← (liftM (parser type raw) : Binder (Option ParamValue)) with
  | some value => pure value
  | none => throw fault

def invalidCapture (spec : ParamSpec) (raw : String) : CallError :=
  .invalidState ("path parameter '" ++ spec.name ++ "' has invalid " ++ spec.type.name
    ++ " value '" ++ raw ++ "'")

def invalid (spec : ParamSpec) (raw : String) : CallError :=
  .invalidState ("parameter '" ++ spec.name ++ "' has invalid " ++ spec.type.name
    ++ " value '" ++ raw ++ "'")

def missing (spec : ParamSpec) : CallError :=
  .invalidState ("missing required parameter '" ++ spec.name ++ "' of type " ++ spec.type.name
    ++ ": " ++ spec.description)

/-- The failure of a capture that belongs to no captured segment. -/
def noCapture (route : String) (depth : Nat) : CallError :=
  .internal ("route '" ++ route ++ "' has no capture at depth " ++ toString depth)

def parseText (parser : ParamParser) (spec : ParamSpec) (raw : String) : Binder ParamValue :=
  parse parser spec.type raw (invalid spec raw)

/-- The value of a JSON value that is no string, under the declared type. -/
def jsonValue? (type : ParamType) (j : Json) : Option ParamValue :=
  match type with
  | .int =>
    match j.int64? with
    | some n =>
      if Int32.minValue.toInt ≤ n ∧ n ≤ Int32.maxValue.toInt then some (.int (Int32.ofInt n))
      else none
    | none => none
  | .long => j.int64?.map fun n => .long (Int64.ofInt n)
  | .float => j.double?.map .float
  | .bool => j.bool?.map .bool
  | .string =>
    match j with
    | .int _ | .float _ | .bool _ => some (.string j.text)
    | _ => none

/-- Converts the JSON value of a query parameter; a string is read like text. -/
def convertJson (parser : ParamParser) (spec : ParamSpec) (j : Json) : Binder ParamValue :=
  match j with
  | .str raw => parseText parser spec raw
  | _ =>
    match jsonValue? spec.type j with
    | some value => pure value
    | none => throw (invalid spec j.text)

def queryValue (parser : ParamParser) (order : List SourceKind) (sources : Sources)
    (spec : ParamSpec) : Binder ParamValue :=
  match sources.lookup? order spec.nameHash spec.name with
  | some (_, .text raw) => parseText parser spec raw
  | some (_, .json j) => convertJson parser spec j
  | none => if spec.required then throw (missing spec) else pure spec.default

/-- Writes the value of one capture into its slot.  The slot of a captured segment is taken without a
look at the number of parameters. -/
def bindCapture (parser : ParamParser) (e : Endpoint) (values : List ParamValue) (c : Capture) :
    Binder (List ParamValue) :=
  match e.segments[c.depth]?.bind Segment.param? with
  | none => throw (noCapture e.name c.depth)
  | some param =>
    match e.params[param]? with
    | none => raise (.text (Args.outOfBounds e.params.length param))
    | some spec => do
      let value ← parse parser spec.type c.text (invalidCapture spec c.text)
      pure (values.set param value)

def bindCaptures (parser : ParamParser) (e : Endpoint) (captures : List Capture) :
    Binder (List ParamValue) :=
  captures.foldlM (bindCapture parser e) (List.replicate e.params.length .null)

def bindQueries (parser : ParamParser) (order : List SourceKind) (sources : Sources) :
    List ParamSpec → List ParamValue → Binder (List ParamValue)
  | spec :: specs, value :: values => do
    let first ← if spec.source = .query then queryValue parser order sources spec else pure value
    let rest ← bindQueries parser order sources specs values
    pure (first :: rest)
  | _, _ => pure []

def bind (parser : ParamParser) (order : List SourceKind) (sources : Sources) (e : Endpoint)
    (captures : List Capture) : Binder (List ParamValue) := do
  let values ← bindCaptures parser e captures
  bindQueries parser order sources e.params values

end Binder
end RouteDispatch
