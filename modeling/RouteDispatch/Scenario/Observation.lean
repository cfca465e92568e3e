import RouteDispatch.Scenario.Forms

/-!
# Observations

What is seen of a piece of code that gives a task when it runs on its own: the state of the task at
the end, its outcome if it has one to hand out, and the log.
-/

namespace RouteDispatch
namespace Scenario

/-- What is seen of a piece of code that gives a task. -/
structure Observation where
  state : Option TaskState
  outcome : Except Stop (Option Outcome)
  log : List Entry

namespace Observation

/-- What a consumer gets that comes to a task now; a task that has a consumer refuses. -/
def handedOut (w : World) (t : TaskId) : Except Stop (Option Outcome) :=
  match (w.cells[t]?).bind (Cell.attach (.relay t)) with
  | some (_, o) => .ok o
  | none => .error (.panic (.text Cell.secondConsumer))

/-- Runs the code in a world of its own. -/
def of (code : Code .task) : Observation :=
  match ({} : Dispatcher).runCode code {} with
  | (.ok t, w) => ⟨some (w.taskState t), handedOut w t, w.log⟩
  | (.error stop, w) => ⟨none, .error stop, w.log⟩

def stateForm (o : Observation) : Json :=
  textForm (o.state.map TaskState.name)

def outcomeForm (o : Observation) : Json :=
  match o.outcome with
  | .ok (some outcome) => Scenario.outcomeForm outcome
  | .ok none => .single "pending" (.bool true)
  | .error stop => stopForm stop

end Observation
end Scenario
end RouteDispatch
