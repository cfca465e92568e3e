import RouteDispatch.Config
import RouteDispatch.Listener
import RouteDispatch.Route.Table

/-!
# Worlds

The state that calls share: all tasks, all calls, the register of named tasks, the table that new
calls are matched against, a counter, and the log.  A world only grows: tasks and calls keep their
places.
-/

namespace RouteDispatch

/-- The place of a call among all calls. -/
abbrev CallId := Nat

/-- A call on its way through the plugins and the handler of its route. -/
structure Pipeline where
  call : CallId
  route : Route

/-- The right to let a call go on from a point. -/
structure Continuation where
  pipeline : Pipeline
  point : Point

/-- Whether a continuation can be used with what a plugin hands on. -/
def Continuation.takes (k : Continuation) : Payload → Bool
  | .args _ => match k.point with
    | .call _ => true
    | .result _ => false
  | .result _ => match k.point with
    | .call _ => false
    | .result _ => true

/-- What happens when a task with a completion handler resolves. -/
inductive Completion where
  | code (f : Outcome → Code .nothing)
  /-- Foreign code runs and holds a continuation. -/
  | resume (k : Continuation) (f : Outcome → Code .nothing)
  /-- The task `into` resolves with what foreign code makes of the outcome. -/
  | transform (f : Outcome → Code .outcome) (into : TaskId)
  /-- The task `into` resolves as the task does that foreign code names. -/
  | chain (f : Outcome → Code .task) (into : TaskId)
  /-- The task `into` resolves with the same outcome. -/
  | relay (into : TaskId)
  /-- The handler's result starts its way back through the plugins. -/
  | handled (p : Pipeline)

/-- Where the continuation of a call is: with running code, or kept by a task. -/
inductive Place where
  | code
  | task
  deriving DecidableEq, Repr

/-- A call: what can be seen of it, its continuation while there is one to be used, the cell of its
end, and the task that its caller was given.  The cell is the call's own and no code can reach it;
it waits for the caller's task. -/
structure Call where
  view : CallView
  held : Option (Point × Place) := none
  ending : Cell TaskId := .fresh
  answer : Option TaskId := none

/-- The state that calls share. -/
structure World where
  cells : List (Cell Completion) := []
  calls : List Call := []
  names : List (String × TaskId) := []
  table : RouteTable := .empty
  ticks : Nat := 0
  log : List Entry := []
  /-- What was done to tasks, in its order. -/
  turns : List (TaskId × Cell.Turn Completion) := []

/-- What all calls of a dispatcher have in common and never changes. -/
structure Dispatcher where
  listener : Listener := .reporting
  config : Config := {}

namespace World

/-- Puts a cell in the place of a task's, as what was done to the task leaves it. -/
def turn (w : World) (t : TaskId) (turn : Cell.Turn Completion) (cell : Cell Completion) : World :=
  { w with cells := w.cells.set t cell, turns := w.turns ++ [(t, turn)] }

section Turn

variable (w : World) (t : TaskId) (turn : Cell.Turn Completion) (cell : Cell Completion)

@[simp]
theorem turn_cells : (w.turn t turn cell).cells = w.cells.set t cell :=
  rfl

@[simp]
theorem turn_turns : (w.turn t turn cell).turns = w.turns ++ [(t, turn)] :=
  rfl

@[simp]
theorem turn_calls : (w.turn t turn cell).calls = w.calls :=
  rfl

@[simp]
theorem turn_log : (w.turn t turn cell).log = w.log :=
  rfl

end Turn

def taskState (w : World) (t : TaskId) : TaskState :=
  match w.cells[t]? with
  | some cell => cell.state
  | none => .waiting

/-- Whether there is a task at a place that has not been resolved. -/
def awaits (w : World) (t : TaskId) : Bool :=
  match w.cells[t]? with
  | some cell => cell.outcome?.isNone
  | none => false

def isRunning (w : World) (c : CallId) : Bool :=
  match w.calls[c]? with
  | some call => call.ending.state == .waiting
  | none => false

def registered? (w : World) (name : String) : Option TaskId :=
  (w.names.find? fun r => r.1 == name).map Prod.snd

/-- The first of the names `name`, `name#2`, `name#3`, and so on, that is not taken.  At most
`tries` numbers are tried. -/
def freeVariant (w : World) (name : String) : (tries number : Nat) → String
  | 0, number => name ++ "#" ++ toString number
  | tries + 1, number =>
    let variant := name ++ "#" ++ toString number
    if (w.registered? variant).isSome then w.freeVariant name tries (number + 1) else variant

/-- The name under which a task is registered that asks for `name`. -/
def freeName (w : World) (name : String) : String :=
  if (w.registered? name).isSome then w.freeVariant name w.names.length 2 else name

def register (name : String) (t : TaskId) (w : World) : World :=
  { w with names := w.names ++ [(w.freeName name, t)] }

def unregister (name : String) (w : World) : World :=
  { w with names := w.names.filter fun entry => entry.1 != name }

def callRef (w : World) (c : CallId) : CallRef :=
  ⟨c, match w.calls[c]? with
    | some call => call.view.id
    | none => 0⟩

end World
end RouteDispatch
