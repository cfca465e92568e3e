import RouteDispatch.Session.Pipeline

/-!
# Dispatch

A request becomes a call: the listener numbers it, a route is found, the arguments are bound, and
the call passes the plugins and the handler of the route.  The caller gets a task at once, whatever
happens to the call; the listener is told of the end before that task resolves.
-/

namespace RouteDispatch

structure Request where
  method : String
  path : String
  version : Option Nat := none
  form : Option (List UInt8) := none
  json : Option Json := none
  transport : Option Datum := none

namespace Request

def inspect (r : Request) : String :=
  Text.record "CallRequest"
    [("method", r.method), ("path", Text.quoted r.path),
      ("version", Text.optionText (r.version.map toString)),
      ("form", Text.optionText (r.form.map fun bytes => toString bytes.length)),
      ("json", Text.boolText r.json.isSome), ("transport", Text.boolText r.transport.isSome)]

/-- The text of a path behind its first question mark. -/
def queryOf? (path : String) : Option String :=
  (Text.cutAt (· == '?') path.toList).2.map String.ofList

/-- The query sources of a request. -/
def sources (r : Request) : Except CallError Sources := do
  let s : Sources := {}
  let s := match queryOf? r.path with
    | some query => s.withQuery query
    | none => s
  let s := match r.form with
    | some body => s.withForm body
    | none => s
  match r.json with
  | some j => s.withJson j
  | none => pure s

end Request

namespace Act

variable (perform : Performer)

/-- The value of a binder's computation: its panic stops the act, its failure is a value. -/
def liftBinder {α : Type} (b : Binder α) : Act (Except CallError α) :=
  match b.run with
  | .ok result => pure result
  | .error p => raise p

def newCall (view : CallView) : Act CallId := do
  let w ← get
  let call : Call := { view }
  set { w with calls := w.calls ++ [call] }
  pure w.calls.length

/-- Notes the match of a call and moves it on. -/
def noteMatch (c : CallId) (m : RouteMatch) : Act Unit := do
  editView c fun v => { v with
    endpoint := some m.route.toEndpoint
    pathParams := namedCaptures m.route.segments m.captures }
  enter c .matched
  let w ← get
  write (.trace (.matched (w.callRef c) m.route.name m.route.version))

/-- Matches a call and binds its arguments. -/
def prepare (d : Dispatcher) (c : CallId) (r : Request) (version : Nat) :
    Act (Except CallError (Route × Args)) := do
  let router := (← get).table.router
  reportAll (router.report r.method r.path version)
  match router.find r.method r.path version with
  | none => pure (.error (.noRoute r.method r.path version))
  | some m => do
    noteMatch c m
    match r.sources with
    | .error e => pure (.error e)
    | .ok sources => do
      let bound := Binder.bind d.config.parser d.config.sourceOrder sources m.route.toEndpoint
        m.captures
      match ← calling c .binder (liftBinder bound) with
      | .error e => pure (.error e)
      | .ok values => do
        enter c .bound
        pure (.ok (m.route, .of m.route.params values r.transport))

/-- Starts a call: the listener numbers it, and then it is matched and bound. -/
def start (d : Dispatcher) (c : CallId) (r : Request) (version : Nat) (view : CallView) :
    Act (Except CallError (Route × Args)) := do
  write (.mark (.started c))
  let id ← calling c .onStart (run perform none (d.listener.onStart view))
  editView c fun v => { v with id }
  prepare d c r version

/-- Sends a prepared call through the stages of its route; one that could not be prepared ends. -/
def launch (c : CallId) : Except CallError (Route × Args) → Act Unit
  | .ok (route, args) => callStage perform ⟨c, route⟩ 0 args
  | .error e => finish perform c (.error e)

/-- Makes a call of a request, and gives the task with its result. -/
def dispatch (d : Dispatcher) (r : Request) : Act TaskId := do
  let version := r.version.getD d.config.defaultVersion
  let view : CallView :=
    { method := r.method, path := r.path, version, transport := r.transport }
  let c ← newCall view
  let prepared ← guarded (start perform d c r version view)
  launch perform c (prepared.bind id)
  let result ← newTask .fresh
  awaitEnd perform c result
  pure result

/-- Puts a table in the place of the one that new calls are matched against. -/
def replaceTable (table : RouteTable) : Act RouteTable := do
  let old := (← get).table
  write (.trace (.tableReplaced table.routes.length))
  modify fun w => { w with table }
  pure old

end Act

namespace Dispatcher

/-- How deep jobs may be nested.  Work nested deeper than this is given up. -/
def nesting : Nat := 1000000

def runCode (d : Dispatcher) {y : Yield} (code : Code y) : World → Except Stop y.Value × World :=
  (Act.run (perform d nesting) none code).exec

def dispatch (d : Dispatcher) (r : Request) : World → Except Stop TaskId × World :=
  (Act.dispatch (perform d nesting) d r).exec

def inspect (d : Dispatcher) (table : RouteTable) : String :=
  Text.openRecord "Dispatcher"
    [("routes", toString table.routes.length), ("config", d.config.inspect)]

/-- The diagnostic record of a dispatcher in the making, which may have no table yet. -/
def inspectBuilder (config : Config) (table : Option RouteTable) : String :=
  Text.openRecord "DispatcherBuilder"
    [("routes", Text.optionText (table.map fun t => toString t.routes.length)),
      ("config", config.inspect)]

end Dispatcher
end RouteDispatch
