import RouteDispatch.Scenario.Transform

/-!
# Steps on tasks

A scenario on tasks is a list of steps.  Tasks stand in named slots; a step that puts a task into a
slot takes away the one before, and a step on an empty slot says so.  Completion handlers may have
steps of their own, which run when the outcome comes.
-/

namespace RouteDispatch
namespace Scenario

/-- How a task is derived from another. -/
inductive Derivation where
  | map (f : Transform)
  | mapMaybe (f : Transform)
  | andThen (f : Chaining)
  | thenMaybe (f : Chaining)

def Derivation.code {y : Yield} (d : Derivation) (t : TaskId) (next : TaskId → Code y) : Code y :=
  match d with
  | .map f => .transformValue t (fun v => f.code (.ok v)) next
  | .mapMaybe f => .transform t f.code next
  | .andThen f => .chainValue t (fun v => f.code (.ok v)) next
  | .thenMaybe f => .chain t f.code next

/-- What a step does with the task of its slot. -/
inductive TaskAct where
  | copyTo (slot : String)
  | complete (o : Outcome)
  | tryComplete (o : Outcome)
  | derive (d : Derivation) (slot : String)
  | poll (waker : String)
  | state
  | inspect
  | other

/-- A step on tasks, with the word for it. -/
inductive TaskStep where
  | put (word slot : String) (o : Option Outcome)
  | drop (word slot : String)
  | panic (word : String) (p : Panic)
  | act (word slot : String) (a : TaskAct)
  | onComplete (word slot label : String) (steps : List TaskStep)

namespace TaskStep

instance : Inhabited TaskStep := ⟨.drop "" ""⟩

def word : TaskStep → String
  | .put word .. => word
  | .drop word _ => word
  | .panic word _ => word
  | .act word .. => word
  | .onComplete word .. => word

/-- The answer of a step that has nothing else to say. -/
def ok : Json := .str "done"

def putInto {y : Yield} (slot : String) (t : TaskId) (next : Code y) : Code y :=
  .unregister slot (.register slot t next)

/-- Does something with the task of a slot, if there is one. -/
def withSlot (slot : String) (next : TaskId → Code .json) : Code .json :=
  .find slot fun found =>
    match found with
    | some t => next t
    | none => .done (.str "no slot")

def pollForm : Option Outcome → Json
  | none => .str "pending"
  | some o => .single "ready" (outcomeForm o)

def attemptForm (settled : Bool) : Json :=
  if settled then ok else alreadyResolvedForm

/-- Does what a step does with the task of its slot, and gives the answer. -/
def actCode (t : TaskId) : TaskAct → Code .json
  | .copyTo slot => putInto slot t (.done ok)
  | .complete o => .complete t o (.done ok)
  | .tryComplete o => .settle t o fun settled => .done (attemptForm settled)
  | .derive d slot => d.code t fun u => putInto slot u (.done ok)
  | .poll waker => .poll t waker fun o => .done (pollForm o)
  | .state => .state t fun s => .done (.arr [.str s.name, .bool (s == .waiting)])
  | .inspect => .state t fun s => .done (.str s.inspect)
  | .other => .done ok

def handlerNote (label : String) (o : Outcome) : Json :=
  .ofMembers [("handler", .str label), ("outcome", outcomeForm o)]

/-- The note of a step inside a completion handler. -/
def nestedNote (word : String) (answer : Json) : Json :=
  .ofMembers [("nested", .str word), ("result", answer)]

mutual

/-- A step as foreign code that gives its answer. -/
def code : TaskStep → Code .json
  | .put _ slot o =>
    match o with
    | none => .create fun t => putInto slot t (.done ok)
    | some o => .resolved o fun t => putInto slot t (.done ok)
  | .drop _ slot => .unregister slot (.done ok)
  | .panic _ p => .panic p
  | .act _ slot a => withSlot slot fun t => actCode t a
  | .onComplete _ slot label steps =>
    withSlot slot fun t =>
      .attach t (fun o => .note (handlerNote label o) (nested steps)) (.done ok)

/-- The steps of a completion handler, each with a note of its answer. -/
def nested : List TaskStep → Code .nothing
  | [] => .skip
  | step :: rest =>
    (code step).andThen fun answer => .note (nestedNote step.word answer) (nested rest)

end

def statesForm (w : World) : Json :=
  .ofMembers (w.names.map fun (slot, t) => (slot, .str (w.taskState t).name))

/-- Runs a step in a world, and gives what is recorded of it. -/
def run (step : TaskStep) (w : World) : Json × World :=
  let (result, w) := ({} : Dispatcher).runCode step.code { w with log := [] }
  let answer := match result with
    | .ok answer => answer
    | .error stop => stopForm stop
  (.ofMembers [("result", answer), ("log", logForm { wakes := true } w.log),
    ("states", statesForm w)], w)

def runAll : List TaskStep → World → List Json
  | [], _ => []
  | step :: rest, w =>
    let (record, w) := step.run w
    record :: runAll rest w

end TaskStep
end Scenario
end RouteDispatch
