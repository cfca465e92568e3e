import RouteDispatch.Session.Run

/-!
# Stages of a call

How a call passes the plugins of its route, the handler, and the plugins again.  Each piece of
foreign code runs under a guard: a panic fails the call.  `perform` performs jobs nested up to a
depth.
-/

namespace RouteDispatch
namespace Act

variable (perform : Performer)

/-- Runs foreign code that was given a continuation.  What it still holds at its end is dropped; in
a panic it is lost. -/
def runHolding (k : Continuation) (piece : Piece) (code : Code .nothing) : Act Unit := do
  tryCatch (calling k.pipeline.call piece (run perform (some k) code)) fun stop => do
    forfeit (some k)
    throw stop
  release perform (some k)

/-- Gives a plugin its turn at a point: the code runs under a guard and holds the continuation. -/
def runPlugin (p : Pipeline) (point : Point) (plugin : String)
    (code : CallView → Code .nothing) : Act Unit := do
  enter p.call point.stage
  let w ← get
  write (.trace (.pluginStarted (w.callRef p.call) point p.route.name plugin))
  match w.calls[p.call]? with
  | none => pure ()
  | some call => do
    let k : Continuation := ⟨p, point⟩
    place k .code
    match ← guarded (runHolding perform k (.plugin point) (code call.view)) with
    | .ok () => pure ()
    | .error e => fail perform p e

/-- Runs the handler of a call, under a guard, and waits for its task. -/
def runHandler (p : Pipeline) (args : Args) : Act Unit := do
  enter p.call .handler
  let w ← get
  write (.trace (.handlerStarted (w.callRef p.call) p.route.name))
  write (.mark (.invoked p.call args))
  let attached ← guarded do
    let t ← calling p.call .handler (run perform none (p.route.handler.invoke args))
    attach perform t (.handled p)
  match attached with
  | .ok () => pure ()
  | .error e => fail perform p e

/-- Brings a call to the plugin at a position on the way to the handler, or to the handler behind
the last one. -/
def callStage (p : Pipeline) (index : Nat) (args : Args) : Act Unit :=
  match p.route.attachments[index]? with
  | none => runHandler perform p args
  | some a =>
    runPlugin perform p (.call index) a.plugin.name fun view =>
      a.plugin.modifyCall a.binding view args

/-- Brings a call to the plugin at a position on the way back, or to its end behind the last one. -/
def resultStage (p : Pipeline) (index : Nat) (v : Json) : Act Unit :=
  match p.route.attachments[index]? with
  | none => succeed perform p v
  | some a =>
    runPlugin perform p (.result index) a.plugin.name fun view =>
      a.plugin.modifyResult a.binding view v

/-- Lets a call go on from the point where its continuation was used. -/
def goOn (k : Continuation) (payload : Payload) : Act Unit :=
  match k.point, payload with
  | .call i, .args a => callStage perform k.pipeline (i + 1) a
  | .result i, .result v => resultStage perform k.pipeline (i + 1) v
  | _, _ => pure ()

/-- Tells the listener how a call ended. -/
def tell (d : Dispatcher) (c : CallId) (o : Outcome) : Act Unit := do
  write (.mark (.ended c o))
  match (← get).calls[c]? with
  | none => pure ()
  | some call =>
    calling c .onEnd (match o with
      | .ok v => run perform none (d.listener.onSucceed call.view v)
      | .error e => run perform none (d.listener.onFail call.view e))

/-- Resolves the task that the caller of a call was given; a second resolution is a panic. -/
def answer (c : CallId) (into : TaskId) (o : Outcome) : Act Unit := do
  if ← settle perform into o then pure () else refuse c

/-- Tells the listener how a call ended, and then resolves the caller's task.  A listener that
panics makes that a failure. -/
def report (d : Dispatcher) (c : CallId) (into : TaskId) (o : Outcome) : Act Unit := do
  match ← guarded (tell perform d c o) with
  | .ok () => answer perform c into o
  | .error e => answer perform c into (.error e)

def complete (h : Completion) (o : Outcome) : Act Unit := do
  match h with
  | .code f => run perform none (f o)
  | .resume k f => do
    place k .code
    runHolding perform k (.deferred k.point) (f o)
  | .transform f into => do
    match ← guarded (run perform none (f o)) with
    | .ok mapped => resolve perform into mapped
    | .error e => resolve perform into (.error e)
  | .chain f into => do
    match ← guarded (run perform none (f o)) with
    | .ok t => attach perform t (.relay into)
    | .error e => resolve perform into (.error e)
  | .relay into => resolve perform into o
  | .handled p =>
    match o with
    | .ok v => do
      write (.mark (.returned p.call))
      resultStage perform p 0 v
    | .error e => fail perform p e

end Act

/-- Performs a job; jobs may be nested up to a depth. -/
def perform (d : Dispatcher) : (depth : Nat) → Performer
  | 0, _ => throw .tooDeep
  | depth + 1, .complete h o => Act.complete (perform d depth) h o
  | depth + 1, .goOn k payload => Act.goOn (perform d depth) k payload
  | depth + 1, .report c into o => Act.report (perform d depth) d c into o

end RouteDispatch
