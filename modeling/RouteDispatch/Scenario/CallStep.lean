import RouteDispatch.Scenario.TaskStep
import RouteDispatch.Scenario.Settings

/-!
# Steps on a dispatcher

A scenario on a dispatcher makes calls under names, resolves and drops the tasks that plugins and
handlers registered, polls calls, and replaces the route table.  What is recorded of a step is its
answer, the log, and the states of all calls so far.
-/

namespace RouteDispatch
namespace Scenario

/-- The state of a scenario: the shared world, and the tasks of calls by name. -/
structure Session where
  dispatcher : Dispatcher
  world : World
  calls : List (String × TaskId) := []

inductive CallStep where
  | call (id : String) (observed : Bool) (r : Request)
  | poll (id : String)
  | resolve (gate : String) (o : Outcome)
  | tryResolve (gate : String) (o : Outcome)
  | gateState (gate : String)
  | dropGate (gate : String)
  | replace (plugins : List Plugin) (definitions : List Definition)
  | table
  | config
  | inspect (r : Request)

namespace CallStep

/-- The answer of a step on a name without a task. -/
def noGate : Json := .str "no gate"

/-- Does something with the task registered under a name, if there is one. -/
def withGate (gate : String) (next : TaskId → Code .json) : Code .json :=
  .find gate fun found =>
    match found with
    | some t => next t
    | none => .done noGate

def outcomeNote (id : String) (o : Outcome) : Json :=
  .ofMembers [("outcome_of", .str id), ("outcome", outcomeForm o)]

def namesForm (table : RouteTable) : Json :=
  .arr (table.routes.map fun r => .str r.name)

/-- Watches the task of a call, if the call is to be observed, and gives its state. -/
def watch (id : String) (observed : Bool) (t : TaskId) : Code .json :=
  let state : Code .json := .state t fun s => .done (.str s.name)
  if observed then .attach t (fun o => .note (outcomeNote id o) .skip) state else state

def nameCall (calls : List (String × TaskId)) (id : String) (t : TaskId) :
    List (String × TaskId) :=
  calls.filter (fun c => c.1 != id) ++ [(id, t)]

def runForm (s : Session) (code : Code .json) : Json × Session :=
  let (result, world) := s.dispatcher.runCode code s.world
  (match result with
    | .ok answer => answer
    | .error stop => stopForm stop,
   { s with world })

/-- Makes a call and puts its task under a name. -/
def callForm (s : Session) (id : String) (observed : Bool) (r : Request) : Json × Session :=
  match s.dispatcher.dispatch r s.world with
  | (.ok t, world) =>
    runForm { s with world, calls := nameCall s.calls id t } (watch id observed t)
  | (.error stop, world) => (stopForm stop, { s with world })

/-- Compiles a table and puts it in the place of the one before. -/
def replaceForm (s : Session) (plugins : List Plugin) (definitions : List Definition) :
    Json × Session :=
  let (log, built) := RouteTable.build plugins definitions
  let world := { s.world with log := s.world.log ++ log }
  match built with
  | .error e => (buildErrorForm e, { s with world })
  | .ok new =>
    match (Act.replaceTable new).exec world with
    | (.ok old, world) => (namesForm old, { s with world })
    | (.error stop, world) => (stopForm stop, { s with world })

/-- Takes a step, and gives its answer. -/
def answer (s : Session) : CallStep → Json × Session
  | .call id observed r => callForm s id observed r
  | .poll id =>
    match s.calls.find? fun c => c.1 == id with
    | some (_, t) => runForm s (.poll t "" fun o => .done (TaskStep.pollForm o))
    | none => (.str "no call", s)
  | .resolve gate o => runForm s (withGate gate fun t => .complete t o (.done TaskStep.ok))
  | .tryResolve gate o =>
    runForm s (withGate gate fun t =>
      .settle t o fun settled => .done (TaskStep.attemptForm settled))
  | .gateState gate => runForm s (withGate gate fun t => .state t fun st => .done (.str st.name))
  | .dropGate gate =>
    runForm s (withGate gate fun t => .unregister gate (.abandon t (.done (.str "dropped"))))
  | .replace plugins definitions => replaceForm s plugins definitions
  | .table => (namesForm s.world.table, s)
  | .config =>
    let c := s.dispatcher.config
    (.arr [.nat c.defaultVersion, .nat c.sourceOrder.length], s)
  | .inspect r =>
    (.arr [.str (s.dispatcher.inspect s.world.table), .str r.inspect], s)

def callsForm (s : Session) : Json :=
  .ofMembers (s.calls.map fun (id, t) => (id, .str (s.world.taskState t).name))

/-- Takes a step, and gives what is recorded of it. -/
def run (filter : LogFilter) (step : CallStep) (s : Session) : Json × Session :=
  let (result, s) := step.answer { s with world := { s.world with log := [] } }
  (.ofMembers [("result", result), ("log", logForm filter s.world.log), ("calls", callsForm s)], s)

def runAll (filter : LogFilter) : List CallStep → Session → List Json
  | [], _ => []
  | step :: rest, s =>
    let (record, s) := step.run filter s
    record :: runAll filter rest s

end CallStep
end Scenario
end RouteDispatch
