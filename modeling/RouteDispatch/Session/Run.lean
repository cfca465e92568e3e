import RouteDispatch.Session.Act

/-!
# Running jobs

A job is a piece of work that runs to its end before the code that caused it goes on: the completion
of a task by its handler, the next stage of a call, or the report of its end.  Jobs cause jobs, so
everything here takes the way to perform a job as an argument; `perform` ties the knot, up to a
depth.

The plugins of a route run one inside the other: a plugin that lets the call go on has the rest of
the call run before its own code continues.  A failure that comes after the call has ended is
reported and dropped.
-/

namespace RouteDispatch

/-- A piece of work that runs to its end before its cause goes on. -/
inductive Job where
  | complete (h : Completion) (o : Outcome)
  | goOn (k : Continuation) (payload : Payload)
  | report (call : CallId) (into : TaskId) (o : Outcome)

abbrev Performer := Job → Act Unit

namespace Act

variable (perform : Performer)

/-- Resolves a task; the answer is whether it was still waiting. -/
def settle (t : TaskId) (o : Outcome) : Act Bool := do
  match (← get).cells[t]? with
  | none => pure false
  | some cell =>
    match cell.settle o with
    | none => pure false
    | some (cell, follow) => do
      setCell t (.settled o follow) cell
      match follow with
      | .quiet => pure ()
      | .wake label => write (.woken label)
      | .run h => perform (.complete h o)
      pure true

/-- Resolves a task for foreign code, and marks it if the task was still waiting. -/
def settleMarked (t : TaskId) (o : Outcome) : Act Bool := do
  let w ← get
  -- The mark stands in front of everything that the resolution sets off.
  if w.awaits t then write (.mark (.resolved t)) else pure ()
  settle perform t o

/-- Resolves a task; a task that is no longer waiting is a panic. -/
def resolve (t : TaskId) (o : Outcome) : Act Unit := do
  if ← settle perform t o then pure () else raise .alreadyResolved

/-- Attaches a completion handler; a second consumer is a panic, before which `refused` is done. -/
def attachOr (refused : Act Unit) (t : TaskId) (h : Completion) : Act Unit := do
  match ((← get).cells[t]?).bind (Cell.attach h) with
  | none => do
    refused
    raise (.text Cell.secondConsumer)
  | some (cell, outcome) => do
    setCell t (.attached h outcome) cell
    match outcome with
    | some o => perform (.complete h o)
    | none => pure ()

def attach (t : TaskId) (h : Completion) : Act Unit :=
  attachOr perform (pure ()) t h

/-- Polls a task; a task that cannot be polled is a panic. -/
def poll (t : TaskId) (waker : String) : Act (Option Outcome) := do
  match (← get).cells[t]? with
  | none => pure none
  | some cell =>
    match cell.poll waker with
    | .error refusal => raise (.text refusal.message)
    | .ok (cell, outcome) => do
      setCell t (.polled waker outcome) cell
      pure outcome

def holds (k : Continuation) : Act Bool := do
  match (← get).calls[k.pipeline.call]? with
  | some call => pure (call.held == some (k.point, .code))
  | none => pure false

/-- Uses the continuation that code was given, if the code still holds it. -/
def withHeld {α : Type} (own : Option Continuation) (use : Continuation → Act α)
    (otherwise : Act α) : Act α :=
  match own with
  | none => otherwise
  | some k => do if ← holds k then use k else otherwise

/-- Says where the continuation of a call is. -/
def place (k : Continuation) (p : Place) : Act Unit :=
  editCall k.pipeline.call fun call => { call with held := some (k.point, p) }

def spend (k : Continuation) (fate : Fate) : Act Unit := do
  editCall k.pipeline.call fun call => { call with held := none }
  write (.mark (.spent k.pipeline.call k.point fate))

/-- Refuses a second resolution of what belongs to a call. -/
def refuse (c : CallId) : Act Unit := do
  write (.mark (.refused c))
  raise .alreadyResolved

/-- Ends a call, and has the end reported if somebody waits for it; a second end is a panic. -/
def conclude (c : CallId) (o : Outcome) : Act Unit := do
  match ((← get).calls[c]?).bind fun call => call.ending.settle o with
  | none => refuse c
  | some (ending, follow) => do
    -- The call has ended before the listener hears of it and may use it again.
    editCall c fun call => { call with ending }
    match follow with
    | .run into => perform (.report c into o)
    | _ => pure ()

/-- Waits for the end of a call, which is reported and then resolves the task `into`. -/
def awaitEnd (c : CallId) (into : TaskId) : Act Unit := do
  match ((← get).calls[c]?).bind fun call => call.ending.attach into with
  | none => raise (.text Cell.secondConsumer)
  | some (ending, outcome) => do
    editCall c fun call => { call with ending, answer := some into }
    match outcome with
    | some o => perform (.report c into o)
    | none => pure ()

/-- Ends a call in the stage that its outcome asks for. -/
def finish (c : CallId) (o : Outcome) : Act Unit := do
  enter c (.ofOutcome o)
  conclude perform c o

/-- Ends a call with a failure, unless it has ended. -/
def fail (p : Pipeline) (e : CallError) : Act Unit := do
  let w ← get
  if w.isRunning p.call then finish perform p.call (.error e)
  else write (.trace (.lateFailure (w.callRef p.call) p.route.name e))

/-- Ends a call with its result, unless it has ended. -/
def succeed (p : Pipeline) (v : Json) : Act Unit := do
  let w ← get
  if w.isRunning p.call then finish perform p.call (.ok v)
  else write (.trace (.lateResult (w.callRef p.call) p.route.name))

def dropped : CallError :=
  .internal "plugin dropped its continuation"

/-- Lets the call go on with what is handed on. -/
def proceed (own : Option Continuation) (payload : Payload) : Act Unit :=
  withHeld own (fun k => do
    if k.takes payload then do
      spend k .proceeded
      perform (.goOn k payload)
    else pure ()) (pure ())

def abort (own : Option Continuation) (e : CallError) : Act Unit :=
  withHeld own (fun k => do
    spend k .aborted
    fail perform k.pipeline e) (pure ())

/-- Drops the continuation, which fails the call. -/
def release (own : Option Continuation) : Act Unit :=
  withHeld own (fun k => do
    spend k .dropped
    fail perform k.pipeline dropped) (pure ())

def forfeit (own : Option Continuation) : Act Unit :=
  withHeld own (fun k => spend k .lost) (pure ())

def look (own : Option Continuation) : Act (Option Held) :=
  withHeld own (fun k => do
    let w ← get
    pure (w.calls[k.pipeline.call]?.map fun call => ⟨k.point, call.view⟩)) (pure none)

/-- Attaches a completion handler that takes over the continuation.  When the task refuses it, the
continuation is with the code again, and lost in the panic. -/
def entrust (own : Option Continuation) (t : TaskId) (h : Outcome → Code .nothing) : Act Unit :=
  withHeld own (fun k => do
    place k .task
    attachOr perform (place k .code) t (.resume k h)) (attach perform t (.code h))

/-- Makes a task that resolves after `t` does, by way of the handler that is made for it. -/
def derive (t : TaskId) (handler : TaskId → Completion) : Act TaskId := do
  let into ← newTask .fresh
  attach perform t (handler into)
  pure into

/-- Gives a task up.  A continuation that its completion handler kept is dropped. -/
def abandon (t : TaskId) : Act Unit := do
  match (← get).cells[t]? with
  | none => pure ()
  | some cell => do
    let (cell, handler) := cell.abandon
    setCell t (.abandoned handler) cell
    match handler with
    | some (.resume k _) => do
      place k .code
      release perform (some k)
    | _ => pure ()

/-- Runs foreign code, which holds the continuation `own` if it was given one. -/
def run (own : Option Continuation) : {y : Yield} → Code y → Act y.Value
  | _, .done v => pure v
  | _, .panic p => raise p
  | _, .log r next => do
    write (.remark r)
    run own next
  | _, .create next => do
    let t ← newTask .fresh
    run own (next t)
  | _, .settle t o next => do
    let settled ← settleMarked perform t o
    run own (next settled)
  | _, .attach t h next => do
    attach perform t (.code h)
    run own next
  | _, .entrust t h next => do
    entrust perform own t h
    run own next
  | _, .transform t f next => do
    let into ← derive perform t (.transform f)
    run own (next into)
  | _, .chain t f next => do
    let into ← derive perform t (.chain f)
    run own (next into)
  | _, .poll t waker next => do
    let o ← poll t waker
    run own (next o)
  | _, .state t next => do
    let w ← get
    run own (next (w.taskState t))
  | _, .abandon t next => do
    abandon perform t
    run own next
  | _, .proceed payload next => do
    proceed perform own payload
    run own next
  | _, .abort e next => do
    abort perform own e
    run own next
  | _, .release next => do
    release perform own
    run own next
  | _, .inspect next => do
    let held ← look own
    run own (next held)
  | _, .register name t next => do
    modify (World.register name t)
    run own next
  | _, .find name next => do
    let w ← get
    run own (next (w.registered? name))
  | _, .unregister name next => do
    modify (World.unregister name)
    run own next
  | _, .tick next => do
    let n ← tick
    run own (next n)

/-- Code that goes on with other code runs as one after the other. -/
theorem run_andThen (own : Option Continuation) {y z : Yield} (c : Code y)
    (k : y.Value → Code z) :
    run perform own (c.andThen k) = (do let v ← run perform own c; run perform own (k v)) := by
  induction c with
  | panic p => rfl
  | _ => simp only [Code.andThen, run, pure_bind, bind_assoc, *]

end Act
end RouteDispatch
